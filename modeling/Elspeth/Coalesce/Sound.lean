import Elspeth.Coalesce.Closing

/-!
# What a coalesce call does

Every call leaves the executor sound: a pending group waits for something, its holds are open
node states of its own, and what is known of a closed group is what its node states show.
The groups that have closed are given beside the executor, which may have forgotten some.
From a sound executor each call does one of a few things to the group it is about and nothing
to the others.
-/

namespace Elspeth.Coalesce

open Collections Lineage Dict List BranchEntry

variable {Row : Type}

namespace Executor

/-! ## Node states -/

section

variable (executor : Executor Row) (status : StateStatus) (stateIds : List Nat)
include executor

/-- Completing states changes the node states only. -/
theorem completeNodeStates_eq :
    executor.completeNodeStates status stateIds =
      { executor with nodeStates := (executor.completeNodeStates status stateIds).nodeStates } := by
  induction stateIds generalizing executor with
  | nil => rfl
  | cons stateId stateIds ih => exact ih (executor.completeNodeState status stateId)

theorem getElem?_completeNodeStates (position : Nat) :
    (executor.completeNodeStates status stateIds).nodeStates[position]? =
      executor.nodeStates[position]?.map fun state =>
        if position ∈ stateIds then { state with status } else state := by
  induction stateIds generalizing executor with
  | nil => simp [completeNodeStates]
  | cons stateId stateIds ih =>
    show ((executor.completeNodeState status stateId).completeNodeStates status
      stateIds).nodeStates[position]? = _
    rw [ih]
    simp only [completeNodeState, getElem?_modify]
    cases executor.nodeStates[position]? with
    | none => rfl
    | some =>
      by_cases here : stateId = position
      · by_cases later : position ∈ stateIds <;> simp [here, later]
      · have apart : position ≠ stateId := Ne.symm here
        by_cases later : position ∈ stateIds <;> simp [here, apart, later]

end

variable {env : Environment Row} {executor next known : Executor Row} {key other : Key}
  {status : StateStatus} {stateIds : List Nat} {added : List NodeState} {merged : Option Bool}
  {pending waiting : PendingCoalesce Row} {closing : Closing Row} {settings : CoalesceSettings}
  {token : Token Row} {branch name groupId : String} {now : Int} {event : CoalesceEvent}

/-- Some node state of the group has a status of this kind. -/
def shows (executor : Executor Row) (key : Key) (kind : StateStatus → Bool) : Bool :=
  executor.nodeStates.any fun state => state.key = key && kind state.status

theorem hasCompletedGroup_eq :
    executor.hasCompletedGroup key = executor.shows key (· ≠ .pending) := rfl

theorem hasReleasedGroup_eq :
    executor.hasReleasedGroup key = executor.shows key (· = .completed) := rfl

/-- The states a list of positions names all belong to one group, and are open. -/
def Owned (executor : Executor Row) (key : Key) (stateIds : List Nat) : Prop :=
  ∀ stateId ∈ stateIds, ∃ tokenId, executor.nodeStates[stateId]? = some ⟨key, tokenId, .pending⟩

theorem owned_append (states : next.nodeStates = executor.nodeStates ++ added)
    (owned : executor.Owned key stateIds) : next.Owned key stateIds := by
  intro stateId listed
  obtain ⟨tokenId, holds⟩ := owned stateId listed
  refine ⟨tokenId, ?_⟩
  rw [states, getElem?_append_left (List.getElem?_eq_some_iff.mp holds).1]
  exact holds

variable {kind : StateStatus → Bool}

theorem shows_append (states : next.nodeStates = executor.nodeStates ++ added) :
    next.shows other kind = (executor.shows other kind ||
      added.any fun state => state.key = other && kind state.status) := by
  simp [shows, states]

section

variable (owned : executor.Owned key stateIds)
include owned

theorem owned_completeNodeStates {otherIds : List Nat} (apart : other ≠ key)
    (kept : executor.Owned other otherIds) :
    (executor.completeNodeStates status stateIds).Owned other otherIds := by
  intro stateId listed
  obtain ⟨tokenId, found⟩ := kept stateId listed
  refine ⟨tokenId, ?_⟩
  have elsewhere : stateId ∉ stateIds := by
    intro shared
    obtain ⟨_, here⟩ := owned stateId shared
    rw [here] at found
    cases found
    exact apart rfl
  rw [getElem?_completeNodeStates, found, Option.map_some, if_neg elsewhere]

/-- Completing open states of a group shows their new status, and hides nothing. -/
theorem shows_completeNodeStates (quiet : kind .pending = false) :
    (executor.completeNodeStates status stateIds).shows other kind =
      (executor.shows other kind || (other = key && kind status && stateIds ≠ [])) := by
  rw [Bool.eq_iff_iff]
  simp only [shows, any_eq_true, mem_iff_getElem?, Bool.or_eq_true, Bool.and_eq_true,
    decide_eq_true_eq]
  constructor
  · rintro ⟨state, ⟨position, found⟩, same, shown⟩
    rw [getElem?_completeNodeStates, Option.map_eq_some_iff] at found
    obtain ⟨before, here, rfl⟩ := found
    by_cases listed : position ∈ stateIds
    · rw [if_pos listed] at same shown
      obtain ⟨tokenId, holds⟩ := owned position listed
      rw [holds] at here
      cases here
      exact .inr ⟨⟨same.symm, shown⟩, ne_nil_of_mem listed⟩
    · rw [if_neg listed] at same shown
      exact .inl ⟨before, ⟨position, here⟩, same, shown⟩
  · rintro (⟨state, ⟨position, found⟩, same, shown⟩ | ⟨⟨rfl, shown⟩, some_state⟩)
    · have elsewhere : position ∉ stateIds := by
        intro listed
        obtain ⟨_, holds⟩ := owned position listed
        rw [holds] at found
        cases found
        rw [quiet] at shown
        cases shown
      refine ⟨state, ⟨position, ?_⟩, same, shown⟩
      rw [getElem?_completeNodeStates, found, Option.map_some, if_neg elsewhere]
    · obtain ⟨stateId, listed⟩ := exists_mem_of_ne_nil _ some_state
      obtain ⟨tokenId, holds⟩ := owned stateId listed
      refine ⟨⟨other, tokenId, status⟩, ⟨stateId, ?_⟩, rfl, shown⟩
      rw [getElem?_completeNodeStates, holds, Option.map_some, if_pos listed]

end

/-! ## The invariant -/

/-- The executor can tell that a group has closed. -/
def Remembers (executor : Executor Row) (key : Key) : Prop :=
  key ∈ executor.completedKeys.keys ∨ executor.hasCompletedGroup key = true

theorem checkCompletion_eq_none :
    executor.checkCompletion env key = none ↔ ¬executor.Remembers key := by
  unfold checkCompletion Remembers
  split
  · simp [*]
  · split <;> simp [*]

/-- The members of a pending group are branches of its coalesce. -/
structure Joins (settings : CoalesceSettings) (key : Key) (pending : PendingCoalesce Row) :
    Prop where
  arrived : ∀ branch entry, pending.branches.get branch = some entry →
    branch ∈ settings.branches ∧ entry.token.branchName = some branch ∧
      entry.token.forkGroupId = some key.2
  lost : ∀ branch ∈ pending.lostBranches.keys, branch ∈ settings.branches

/-- A pending group has a member, and under policy `first` no arrived one. -/
structure Idle (settings : CoalesceSettings) (pending : PendingCoalesce Row) : Prop where
  some_member : pending.branches.size ≠ 0 ∨ pending.lostBranches.size ≠ 0
  first : settings.policy = .first → pending.branches.size = 0

/-- What holds while a call is at work, given the groups that have closed. -/
structure Holds (env : Environment Row) (closed : Key → Prop) (executor : Executor Row) :
    Prop where
  joins : ∀ key pending, executor.pending.get key = some pending →
    ∃ settings, env.settings key.1 = some settings ∧ Joins settings key pending
  owned : ∀ key pending, executor.pending.get key = some pending →
    executor.Owned key (pending.branches.values.map stateId)
  shut : ∀ key, closed key → executor.pending.get key = none
  fits : executor.completedKeys.Fits env.maxCompletedKeys
  /-- What is remembered of a closed group is right, or to be looked up. -/
  known : ∀ key merged, executor.completedKeys.get key = some merged →
    closed key ∧ ∀ flavor ∈ merged, flavor = executor.hasReleasedGroup key
  completed : ∀ key, executor.hasCompletedGroup key = true → closed key
  unseen : ∀ key ∈ executor.failedWithoutMemberState,
    closed key ∧ executor.hasCompletedGroup key = false
  evidence : ∀ key ∈ executor.completedKeys.keys, executor.hasCompletedGroup key = false →
    key ∈ executor.failedWithoutMemberState

/-- The invariant of the executor between calls. -/
structure Sound (env : Environment Row) (closed : Key → Prop) (executor : Executor Row) :
    Prop extends Holds env closed executor where
  idle : ∀ key pending settings, executor.pending.get key = some pending →
    env.settings key.1 = some settings → Idle settings pending

variable {closed : Key → Prop}

theorem Sound.initial : Sound env closed (Executor.initial : Executor Row) where
  joins := nofun
  owned := nofun
  shut := fun _ _ => rfl
  fits := fun _ _ => Nat.zero_le _
  known := nofun
  completed := nofun
  unseen := nofun
  evidence := nofun
  idle := nofun

section

variable (holds : Holds env closed executor)
include holds

theorem Holds.joins_of (found : executor.pending.get key = some pending)
    (registered : env.settings key.1 = some settings) : Joins settings key pending := by
  obtain ⟨other, same, joins⟩ := holds.joins key pending found
  cases registered.symm.trans same
  exact joins

/-- What the executor can tell to be closed is closed. -/
theorem Holds.closed_of_remembers (remembers : executor.Remembers key) : closed key := by
  rcases remembers with kept | completed
  · obtain ⟨merged, found⟩ := mem_keys.mp kept
    exact (holds.known key merged found).1
  · exact holds.completed key completed

/-! ## Late tokens -/

/-- A closed group is remembered again. -/
theorem Holds.mark (remembers : executor.Remembers key)
    (right : ∀ flavor ∈ merged, flavor = executor.hasReleasedGroup key) :
    Holds env closed (executor.markCompleted env key merged) := by
  refine
    { holds with
      fits := fits_put _ _ _ _
      known := ?_
      unseen := fun other listed => holds.unseen other (mem_of_mem_filter listed)
      evidence := ?_ }
  · intro other value found
    have before := get_of_get_put found
    by_cases here : other = key
    · subst here
      rw [if_pos rfl] at before
      exact ⟨holds.closed_of_remembers remembers, before ▸ right⟩
    · rw [if_neg here] at before
      exact holds.known other value before
  · intro other kept unseen
    have still : other ∈ (executor.completedKeys.put env.maxCompletedKeys key merged).keys := kept
    refine mem_filter.mpr ⟨holds.evidence other ?_ unseen, by simp [still]⟩
    rcases mem_keys_of_put still with rfl | before
    · -- A group looked up in the Landscape has a completed state.
      exact remembers.resolve_right (Bool.eq_false_iff.mp unseen)
    · exact before

/-- A group that can be told to be closed is found in memory after the check. -/
theorem Holds.checkCompletion (checked : executor.checkCompletion env key = some known) :
    Holds env closed known ∧ known.pending = executor.pending ∧
      known.nodeStates = executor.nodeStates ∧ key ∈ known.completedKeys.keys := by
  unfold Executor.checkCompletion at checked
  split at checked
  next kept =>
    cases checked
    exact ⟨holds, rfl, rfl, kept⟩
  · split at checked
    next done =>
      cases checked
      exact ⟨holds.mark (.inr done) nofun, rfl, rfl,
        mem_keys_of_get (get_put_self holds.fits key none)⟩
    · cases checked

end

/-- The executor once a late token has been rejected. -/
def reject (executor : Executor Row) (key : Key) (token : Token Row) : Executor Row :=
  ((executor.discardEvidence key).beginNodeState key token).completeNodeState .failed
    executor.nextStateId

/-- A late token's state is failed as soon as it has begun. -/
theorem nodeStates_reject (executor : Executor Row) (key : Key) (token : Token Row) :
    (executor.reject key token).nodeStates =
      executor.nodeStates ++ [⟨key, token.tokenId, .failed⟩] :=
  modify_concat ..

/-- The reason a late token is rejected with. -/
def lateReason (merged : Bool) : FailureReason :=
  if merged then .lateArrivalAfterMerge else .scopeGroupFailed

theorem closureOf_discardEvidence :
    (executor.discardEvidence key).closureOf env key merged =
      ((executor.closureOf env key merged).1,
        (executor.closureOf env key merged).2.discardEvidence key) := by
  cases merged with
  | some => rfl
  | none =>
    simp only [closureOf, markCompleted, discardEvidence, filter_filter, and_comm, Bool.and_comm]
    rfl

section

variable (holds : Holds env closed executor)
include holds

/-- The answer to a late token is what the node states of its group show. -/
theorem Holds.acceptLate_eq (found : executor.completedKeys.get key = some merged)
    (token : Token Row) :
    executor.acceptLate env key token =
      .ok (⟨key, .late (lateReason (executor.hasReleasedGroup key)) token
        !executor.hasCompletedGroup key⟩,
        (executor.closureOf env key merged).2.reject key token) := by
  have flavor : (executor.closureOf env key merged).1 = executor.hasReleasedGroup key := by
    cases merged with
    | none => rfl
    | some flavor => exact (holds.known key _ found).2 flavor rfl
  have evidence : decide (key ∈ executor.failedWithoutMemberState) =
      !executor.hasCompletedGroup key := by
    rw [Bool.eq_iff_iff, decide_eq_true_eq, Bool.not_eq_true']
    exact ⟨fun listed => (holds.unseen key listed).2, holds.evidence key (mem_keys_of_get found)⟩
  unfold acceptLate
  rw [found]
  simp only [closureOf_discardEvidence, flavor, evidence]
  rfl

theorem Holds.closureOf (found : executor.completedKeys.get key = some merged) :
    Holds env closed (executor.closureOf env key merged).2 := by
  cases merged with
  | some => exact holds
  | none =>
    refine holds.mark (.inl (mem_keys_of_get found)) ?_
    rintro _ ⟨⟩
    rfl

theorem Holds.reject (isClosed : closed key) (token : Token Row) :
    Holds env closed (executor.reject key token) := by
  have states := nodeStates_reject executor key token
  have released (other : Key) : (executor.reject key token).hasReleasedGroup other =
      executor.hasReleasedGroup other := by
    simp [hasReleasedGroup_eq, shows_append states]
  have completed (other : Key) : (executor.reject key token).hasCompletedGroup other =
      (executor.hasCompletedGroup other || key = other) := by
    simp [hasCompletedGroup_eq, shows_append states]
  refine
    { holds with
      owned := fun other pending found => owned_append states (holds.owned other pending found)
      known := ?_, completed := ?_, unseen := ?_, evidence := ?_ }
  · intro other merged found
    rw [released]
    exact holds.known other merged found
  · intro other done
    rw [completed, Bool.or_eq_true, decide_eq_true_eq] at done
    exact done.elim (holds.completed other) fun same => same ▸ isClosed
  · intro other listed
    obtain ⟨before, apart⟩ := mem_filter.mp listed
    have apart : other ≠ key := of_decide_eq_true apart
    simpa [completed, apart.symm] using holds.unseen other before
  · intro other kept unseen
    rw [completed, Bool.or_eq_false_iff, decide_eq_false_iff_not] at unseen
    exact mem_filter.mpr
      ⟨holds.evidence other kept unseen.1, decide_eq_true (Ne.symm unseen.2)⟩

/-- A token of a closed group is rejected. -/
theorem Holds.acceptLate (kept : key ∈ executor.completedKeys.keys) (token : Token Row) :
    ∃ next, executor.acceptLate env key token =
        .ok (⟨key, .late (lateReason (executor.hasReleasedGroup key)) token
          !executor.hasCompletedGroup key⟩, next) ∧
      Holds env closed next ∧ next.pending = executor.pending ∧
      next.nodeStates = executor.nodeStates ++ [⟨key, token.tokenId, .failed⟩] := by
  obtain ⟨merged, found⟩ := mem_keys.mp kept
  refine ⟨_, holds.acceptLate_eq found token,
    (holds.closureOf found).reject (holds.known key merged found).1 token, ?_⟩
  rw [nodeStates_reject]
  cases merged <;> exact ⟨rfl, rfl⟩

/-! ## Reports -/

/-- The members of the group that a report is about. -/
theorem Holds.joins_waitingFor (registered : env.settings key.1 = some settings) (now : Int) :
    Joins settings key (executor.waitingFor key now) := by
  unfold waitingFor
  cases found : executor.pending.get key with
  | none => exact ⟨nofun, nofun⟩
  | some => exact holds.joins_of found registered

theorem Holds.owned_waitingFor (key : Key) (now : Int) :
    executor.Owned key ((executor.waitingFor key now).branches.values.map stateId) := by
  unfold waitingFor
  cases found : executor.pending.get key with
  | none => simp [Owned]
  | some pending => exact holds.owned key pending found

/-- A group that is not closed gets other members. -/
theorem Holds.join (registered : env.settings key.1 = some settings)
    (joins : Joins settings key waiting)
    (own : (executor.join key waiting added).Owned key (waiting.branches.values.map stateId))
    (quiet : ∀ state ∈ added, state.status = .pending) (open_ : ¬closed key) :
    Holds env closed (executor.join key waiting added) := by
  have states : (executor.join key waiting added).nodeStates = executor.nodeStates ++ added := rfl
  have released (other : Key) : (executor.join key waiting added).hasReleasedGroup other =
      executor.hasReleasedGroup other := by
    rw [hasReleasedGroup_eq, shows_append states, any_eq_false.mpr, Bool.or_false]
    · rfl
    · intro state listed
      simp [quiet state listed]
  have completed (other : Key) : (executor.join key waiting added).hasCompletedGroup other =
      executor.hasCompletedGroup other := by
    rw [hasCompletedGroup_eq, shows_append states, any_eq_false.mpr, Bool.or_false]
    · rfl
    · intro state listed
      simp [quiet state listed]
  refine
    { holds with
      joins := ?_, owned := ?_, shut := ?_
      known := fun other merged found => released other ▸ holds.known other merged found
      completed := fun other done => holds.completed other (completed other ▸ done)
      unseen := fun other listed => completed other ▸ holds.unseen other listed
      evidence := fun other kept unseen => holds.evidence other kept (completed other ▸ unseen) }
  · intro other pending found
    rw [Executor.join, get_set] at found
    split at found
    next here =>
      cases found
      exact here ▸ ⟨settings, registered, joins⟩
    · exact holds.joins other pending found
  · intro other pending found
    rw [Executor.join, get_set] at found
    split at found
    next here =>
      cases found
      exact here ▸ own
    · exact owned_append states (holds.owned other pending found)
  · intro other isClosed
    have apart : other ≠ key := fun here => open_ (here ▸ isClosed)
    rw [Executor.join, get_set_ne _ apart]
    exact holds.shut other isClosed

theorem Holds.holding (registered : env.settings key.1 = some settings)
    (expected : branch ∈ settings.branches) (named : token.branchName = some branch)
    (grouped : token.forkGroupId = some key.2)
    (new : branch ∉ (executor.waitingFor key now).branches.keys) (open_ : ¬closed key) :
    Holds env closed (executor.holding key branch token now) := by
  have joined := holds.joins_waitingFor registered now
  refine holds.join registered ⟨?_, joined.lost⟩ ?_ (by simp) open_
  · intro name entry listed
    rw [arriving, PendingCoalesce.arrive, get_set] at listed
    split at listed
    next same =>
      cases listed
      exact ⟨same ▸ expected, same ▸ named, grouped⟩
    · exact joined.arrived name entry listed
  · have values : (executor.arriving key branch token now).branches.values =
        (executor.waitingFor key now).branches.values ++ [⟨token, now, executor.nextStateId⟩] :=
      values_set_of_notMem new _
    intro stateId listed
    rw [values, map_append, mem_append] at listed
    rcases listed with before | added
    · exact owned_append rfl (holds.owned_waitingFor key now) stateId before
    · obtain rfl : stateId = executor.nodeStates.length := by simpa [nextStateId] using added
      exact ⟨token.tokenId, by simp [Executor.join]⟩

theorem Holds.losing {reason : String} (registered : env.settings key.1 = some settings)
    (expected : branch ∈ settings.branches) (open_ : ¬closed key) :
    Holds env closed (executor.losing key branch reason now) := by
  have joined := holds.joins_waitingFor registered now
  refine holds.join registered ⟨joined.arrived, ?_⟩
    (owned_append rfl (holds.owned_waitingFor key now)) (by simp) open_
  intro name listed
  rcases mem_keys_set.mp listed with rfl | before
  · exact expected
  · exact joined.lost name before

end

/-! ## Closing a group -/

/-- The verdict that closes a group, over the tokens that had arrived. -/
def Closes (settings : CoalesceSettings) (key : Key) (tokens : List (Token Row))
    (outcome : CoalesceOutcome Row) : Prop :=
  outcome.key = key ∧
    match outcome.verdict with
    | .merged _ consumed => consumed.Perm tokens ∧ settings.Admits tokens.length
    | .failed _ consumed => consumed = tokens
    | .held => False
    | .late .. => False

/-- A closing of a group says what it writes. -/
structure Sensible (executor : Executor Row) (settings : CoalesceSettings) (key : Key)
    (pending : PendingCoalesce Row) (closing : Closing Row) : Prop where
  owned : executor.Owned key closing.stateIds
  done : closing.status ≠ .pending
  some_state : closing.status = .completed → closing.stateIds ≠ []
  closes : Closes settings key pending.tokens ⟨key, closing.verdict⟩

theorem length_tokens (pending : PendingCoalesce Row) :
    pending.tokens.length = pending.branches.size := by
  unfold PendingCoalesce.tokens
  rw [length_map, length_values]

theorem sensible_failing (owned : executor.Owned key (pending.branches.values.map stateId))
    (settings : CoalesceSettings) (reason : FailureReason) :
    Sensible executor settings key pending (failing pending reason) :=
  ⟨owned, by simp [failing], by simp [failing], rfl, rfl⟩

theorem sensible_of_merging (joins : Joins settings key pending)
    (owned : executor.Owned key (pending.branches.values.map stateId))
    (admits : settings.Admits pending.branches.size)
    (merges : merging env settings pending = .ok closing) :
    Sensible executor settings key pending closing := by
  have perm : (consumedEntries settings pending).Perm pending.branches.values := by
    refine filterMap_get_perm settings.nodup_branches fun branch listed => ?_
    obtain ⟨entry, found⟩ := mem_keys.mp listed
    exact (joins.arrived branch entry found).1
  unfold merging at merges
  split at merges
  · cases merges
    exact sensible_failing owned settings _
  · split at merges
    · cases merges
      exact sensible_failing owned settings _
    · cases merges
      exact sensible_failing owned settings _
    · cases merges
    · cases merges
      refine ⟨fun stateId listed => owned stateId ((perm.map _).mem_iff.mp listed), by simp,
        fun _ none_consumed => ?_, rfl, perm.map _, length_tokens pending ▸ admits⟩
      have length := perm.length_eq
      have some_arrived := admits.pos
      rw [map_eq_nil_iff.mp none_consumed, length_values, length_nil] at length
      omega

theorem pending_close :
    (executor.close env key closing).pending = executor.pending.erase key := by
  rw [close, completeNodeStates_eq]
  rfl

theorem completedKeys_close : (executor.close env key closing).completedKeys =
    executor.completedKeys.put env.maxCompletedKeys key
      (some (decide (closing.status = .completed))) := by
  rw [close, completeNodeStates_eq]
  rfl

theorem get_close (other : Key) : (executor.close env key closing).pending.get other =
    if other = key then none else executor.pending.get other := by
  rw [pending_close, get_erase]

section

variable (holds : Holds env closed executor) (found : executor.pending.get key = some pending)
include holds found

theorem Holds.sensible (registered : env.settings key.1 = some settings)
    (arrives : event = .arrival → 0 < pending.branches.size)
    (closes : closingOf env settings event key pending = .ok (some closing)) :
    Sensible executor settings key pending closing := by
  have owned := holds.owned key pending found
  unfold closingOf at closes
  split at closes
  · cases closes
  next decided =>
    cases merges : merging env settings pending <;> rw [merges] at closes <;> cases closes
    exact sensible_of_merging (holds.joins_of found registered) owned
      (admits_of_merge decided arrives) merges
  · cases closes
    exact sensible_failing owned settings _
  · cases closes

/-- A group closes. -/
theorem Holds.close (sensible : Sensible executor settings key pending closing) :
    Holds env (fun other => closed other ∨ other = key) (executor.close env key closing) := by
  have open_ : ¬closed key := fun isClosed => by
    rw [holds.shut key isClosed] at found
    cases found
  have unseen (other : Key) : other ∈ (executor.close env key closing).failedWithoutMemberState ↔
      (closing.status = .failed ∧ closing.stateIds = []) ∧ other = key ∨
        other ∈ executor.failedWithoutMemberState ∧
          (other ∈ (executor.completedKeys.set key
            (some (decide (closing.status = .completed)))).keys →
          other ∈ (executor.close env key closing).completedKeys.keys) := by
    rw [completedKeys_close, Executor.close, markCompleted, completeNodeStates_eq]
    by_cases empty : closing.status = .failed ∧ closing.stateIds = [] <;>
      simp [empty, ← imp_iff_not_or]
  have completed (other : Key) : (executor.close env key closing).hasCompletedGroup other =
      (executor.hasCompletedGroup other || (other = key && closing.stateIds ≠ [])) := by
    show (executor.completeNodeStates _ _).shows other (· ≠ .pending) = _
    rw [shows_completeNodeStates sensible.owned] <;> simp [sensible.done, hasCompletedGroup_eq]
  have released (other : Key) : (executor.close env key closing).hasReleasedGroup other =
      (executor.hasReleasedGroup other || (other = key && closing.status = .completed)) := by
    show (executor.completeNodeStates _ _).shows other (· = .completed) = _
    rw [shows_completeNodeStates sensible.owned]
    · by_cases merged : closing.status = .completed
      · simp [merged, sensible.some_state merged, hasReleasedGroup_eq]
      · simp [merged, hasReleasedGroup_eq]
    · rfl
  have pristine : executor.hasCompletedGroup key = false :=
    Bool.eq_false_iff.mpr fun was => open_ (holds.completed key was)
  have unreleased : executor.hasReleasedGroup key = false := by
    refine Bool.eq_false_iff.mpr fun was => Bool.eq_false_iff.mp pristine ?_
    obtain ⟨state, listed, shown⟩ := any_eq_true.mp was
    exact any_eq_true.mpr ⟨state, listed, by simp_all⟩
  refine ⟨?_, ?_, ?_, completedKeys_close ▸ fits_put _ _ _ _, ?_, ?_, ?_, ?_⟩
  · intro other waiting there
    rw [get_close] at there
    split at there
    · cases there
    · exact holds.joins other waiting there
  · intro other waiting there
    rw [get_close] at there
    split at there
    · cases there
    next apart => exact owned_completeNodeStates sensible.owned apart (holds.owned other _ there)
  · intro other isClosed
    rw [get_close]
    split
    · rfl
    next apart => exact holds.shut other (isClosed.resolve_right apart)
  · intro other merged there
    rw [completedKeys_close] at there
    have before := get_of_get_put there
    rw [released]
    by_cases here : other = key
    · rw [if_pos here] at before
      refine ⟨.inr here, ?_⟩
      simp [before, here, unreleased]
    · rw [if_neg here] at before
      simpa [here] using holds.known other merged before
  · intro other done
    rw [completed, Bool.or_eq_true] at done
    exact done.imp (holds.completed other) fun both => by simp_all
  · intro other listed
    rw [completed]
    rcases (unseen other).mp listed with ⟨⟨-, empty⟩, rfl⟩ | ⟨before, -⟩
    · exact ⟨.inr rfl, by simp [pristine, empty]⟩
    · obtain ⟨isClosed, none_done⟩ := holds.unseen other before
      have apart : other ≠ key := fun here => open_ (here ▸ isClosed)
      exact ⟨.inl isClosed, by simp [none_done, apart]⟩
  · intro other kept none_done
    rw [completed, Bool.or_eq_false_iff] at none_done
    refine (unseen other).mpr ?_
    by_cases here : other = key
    · have empty : closing.stateIds = [] := by simpa [here] using none_done.2
      refine .inl ⟨⟨?_, empty⟩, here⟩
      cases status : closing.status with
      | pending => exact absurd status sensible.done
      | completed => exact absurd empty (sensible.some_state status)
      | failed => rfl
    · have before := (mem_keys_of_put (completedKeys_close ▸ kept)).resolve_left here
      exact .inr ⟨holds.evidence other before none_done.1, fun _ => kept⟩

end

/-- Only the planning of a merge raises, unless a group of policy `first` holds an arrival. -/
theorem mergeRaised_of_error {error : CoalesceError} (unheld : settings.policy = .first →
      event = .timeout ∨ event = .flush → pending.branches.size = 0)
    (failed : closingOf env settings event key pending = .error error) :
    ∃ message, error = .mergeRaised message := by
  obtain ⟨decision, decided⟩ := decideCoalesce_ok settings event pending.lostBranches.keys key.2
    unheld
  unfold closingOf at failed
  simp only [decided] at failed
  cases decision with
  | merge =>
    cases merges : merging env settings pending <;> rw [merges] at failed <;> cases failed
    unfold merging at merges
    split at merges
    · cases merges
    · split at merges <;> cases merges
      exact ⟨_, rfl⟩
  | fail | wait => cases failed

theorem wait_of_closingOf (waits : closingOf env settings event key pending = .ok none) :
    decideCoalesce settings event pending.branches.size pending.lostBranches.keys key.2 =
      .ok .wait := by
  unfold closingOf at waits
  split at waits
  · cases waits
  · cases merges : merging env settings pending <;> rw [merges] at waits <;> cases waits
  · cases waits
  · assumption

/-! ## Calls -/

section Calls

variable {α : Type} {spec : α → Executor Row → Prop}

/-- A call raises at most what planning a merge raised, and otherwise returns as told. -/
def Returns (spec : α → Executor Row → Prop) : Except (Raised Row) (α × Executor Row) → Prop
  | .error raised => ∃ message, raised.error = .mergeRaised message
  | .ok (value, next) => spec value next

theorem Returns.mono {wider : α → Executor Row → Prop}
    {result : Except (Raised Row) (α × Executor Row)} (returns : Returns spec result)
    (implies : ∀ value next, spec value next → wider value next) : Returns wider result := by
  cases result with
  | error => exact returns
  | ok => exact implies _ _ returns

theorem Returns.map {β : Type} {after : β → Executor Row → Prop}
    {result : Except (Raised Row) (α × Executor Row)} (returns : Returns spec result)
    (convert : α → β) (implies : ∀ value next, spec value next → after (convert value) next) :
    Returns after (result.map fun (value, next) => (convert value, next)) := by
  cases result with
  | error => exact returns
  | ok => exact implies _ _ returns

/-- A call's effect on the group it is about, and what is left of that group. -/
structure Affects (env : Environment Row) (closed : Key → Prop) (executor : Executor Row)
    (key : Key) (left : Option (PendingCoalesce Row)) (next : Executor Row) : Prop where
  sound : Sound env closed next
  gets : ∀ other, next.pending.get other =
    if other = key then left else executor.pending.get other

/-- What a report comes to: its group waits on with the new member, or closes. -/
inductive Moves (env : Environment Row) (closed : Key → Prop) (executor : Executor Row)
    (settings : CoalesceSettings) (key : Key) (waiting : PendingCoalesce Row) :
    List (CoalesceOutcome Row) → Executor Row → Prop
  | waits {outcomes : List (CoalesceOutcome Row)} {next : Executor Row}
      (held : ∀ outcome ∈ outcomes, outcome = ⟨key, .held⟩)
      (affects : Affects env closed executor key (some waiting) next) :
      Moves env closed executor settings key waiting outcomes next
  | closes {closing : CoalesceOutcome Row} {next : Executor Row}
      (closes : Closes settings key waiting.tokens closing)
      (affects : Affects env (fun other => closed other ∨ other = key) executor key none next) :
      Moves env closed executor settings key waiting [closing] next

/-- The outcome closes a pending group. -/
def Resolves (env : Environment Row) (executor : Executor Row) (key : Key)
    (outcome : CoalesceOutcome Row) : Prop :=
  ∃ settings pending, env.settings key.1 = some settings ∧
    executor.pending.get key = some pending ∧ Closes settings key pending.tokens outcome

/-- The group is closed by its outcome. -/
def Settles (env : Environment Row) (closed : Key → Prop) (executor : Executor Row) (key : Key)
    (outcome : CoalesceOutcome Row) (next : Executor Row) : Prop :=
  Resolves env executor key outcome ∧
    Affects env (fun other => closed other ∨ other = key) executor key none next

variable {holding raised : Executor Row} {wrap : CoalesceOutcome Row → α}
  {held : Except (Raised Row) (α × Executor Row)} (sound : Sound env closed executor)
  (registered : env.settings key.1 = some settings)
include sound registered

theorem Sound.affects {wider : Key → Prop} {left : Option (PendingCoalesce Row)}
    (holds : Holds env wider next) (gets : ∀ other, next.pending.get other =
      if other = key then left else executor.pending.get other)
    (idle : ∀ waiting, left = some waiting → Idle settings waiting) :
    Affects env wider executor key left next := by
  refine ⟨⟨holds, fun other pending known found its => ?_⟩, gets⟩
  rw [gets] at found
  split at found
  next here =>
    cases registered.symm.trans (here ▸ its)
    exact idle pending found
  · exact sound.idle other pending known found its

/-- A decision about a group is carried out. -/
theorem Sound.carryOut (holds : Holds env closed holding)
    (gets : ∀ other, holding.pending.get other =
      if other = key then some waiting else executor.pending.get other)
    (arrives : event = .arrival → 0 < waiting.branches.size)
    (unheld : settings.policy = .first → event = .timeout ∨ event = .flush →
      waiting.branches.size = 0)
    (waits : decideCoalesce settings event waiting.branches.size waiting.lostBranches.keys key.2 =
      .ok .wait → Returns spec held)
    (closes : ∀ outcome next, Closes settings key waiting.tokens outcome →
      Affects env (fun other => closed other ∨ other = key) executor key none next →
        spec (wrap outcome) next) :
    Returns spec
      (carryOut env holding key raised wrap held (closingOf env settings event key waiting)) := by
  have found : holding.pending.get key = some waiting := (gets key).trans (if_pos rfl)
  cases decided : closingOf env settings event key waiting with
  | error => exact mergeRaised_of_error unheld decided
  | ok closing =>
    cases closing with
    | none => exact waits (wait_of_closingOf decided)
    | some =>
      have sensible := holds.sensible found registered arrives decided
      refine closes _ _ sensible.closes (sound.affects registered (holds.close found sensible)
        (fun other => ?_) nofun)
      rw [get_close, gets]
      split <;> rfl

/-- An arrival at an open group is held, or closes its group. -/
theorem acceptHeld_spec (expected : branch ∈ settings.branches)
    (named : token.branchName = some branch) (grouped : token.forkGroupId = some key.2)
    (new : branch ∉ (executor.waitingFor key now).branches.keys) (open_ : ¬closed key) :
    Returns (fun outcome => Moves env closed executor settings key
        (executor.arriving key branch token now) [outcome])
      (executor.acceptHeld env settings key branch token now) := by
  have holds := sound.holding registered expected named grouped new open_
  have arrived : 0 < (executor.arriving key branch token now).branches.size := by
    have values : (executor.arriving key branch token now).branches.values = _ ++ [_] :=
      values_set_of_notMem new _
    rw [← length_values, values, length_append]
    exact Nat.succ_pos _
  have gets := get_set executor.pending key (executor.arriving key branch token now)
  obtain ⟨raised, ran⟩ := @acceptHeld_eq _ env _ _ _ _ settings token new
  rw [ran]
  refine sound.carryOut registered holds gets (fun _ => arrived) (by simp) (fun waits => ?_)
    fun outcome next => .closes
  refine .waits (by simp) (sound.affects registered holds gets ?_)
  rintro _ ⟨⟩
  refine ⟨.inl arrived.ne', fun policy => ?_⟩
  -- A group of policy `first` would have merged.
  simp [decideCoalesce, policy, Nat.one_le_iff_ne_zero, arrived.ne'] at waits

/-- A loss in an open group is recorded, or closes its group. -/
theorem evaluateAfterLoss_spec (expected : branch ∈ settings.branches) (reason : String)
    (open_ : ¬closed key) :
    Returns (fun outcome => Moves env closed executor settings key
        ((executor.waitingFor key now).lose branch reason) outcome.toList)
      ((executor.losing key branch reason now).evaluateAfterLoss env settings key) := by
  have holds : Holds env closed (executor.losing key branch reason now) :=
    sound.losing registered expected open_
  have gets := get_set executor.pending key ((executor.waitingFor key now).lose branch reason)
  obtain ⟨raised, ran⟩ := @evaluateAfterLoss_eq _ env (executor.losing key branch reason now) _ _
    (get_set_self ..) settings
  rw [ran]
  refine sound.carryOut registered holds gets (by simp) (by simp) (fun _ => ?_)
    fun outcome next => .closes
  refine .waits (by simp) (sound.affects registered holds gets ?_)
  rintro _ ⟨⟩
  refine ⟨.inr ?_, fun policy => ?_⟩
  · have listed : branch ∈ ((executor.waitingFor key now).lose branch reason).lostBranches.keys :=
      mem_keys_set.mpr (.inl rfl)
    rw [← length_keys]
    exact (length_pos_of_mem listed).ne'
  · show (executor.waitingFor key now).branches.size = 0
    unfold waitingFor
    cases found : executor.pending.get key with
    | none => rfl
    | some pending => exact (sound.idle key pending settings found registered).first policy

/-! ## Timeouts and the end of input -/

theorem resolvePending_spec (found : executor.pending.get key = some pending)
    (forced : event = .timeout ∨ event = .flush) :
    Returns (Settles env closed executor key)
      (resolvePending env settings event executor key pending) := by
  have idle := sound.idle key pending settings found registered
  have gets (other : Key) : executor.pending.get other =
      if other = key then some pending else executor.pending.get other := by
    split
    next here => rw [here, found]
    · rfl
  obtain ⟨raised, ran⟩ := @resolvePending_eq _ env _ _ _ found settings event
  rw [ran]
  refine sound.carryOut registered sound.toHolds gets ?_ (fun policy _ => idle.first policy)
    (fun waits => absurd waits (decideCoalesce_resolves forced)) fun outcome next closes affects =>
      ⟨⟨settings, pending, registered, found, closes⟩, affects⟩
  rcases forced with rfl | rfl <;> simp

theorem timeOut_spec (found : executor.pending.get key = some pending) :
    Returns (Settles env closed executor key) (executor.timeOut env settings key) := by
  unfold timeOut
  rw [found]
  exact resolvePending_spec sound registered found (.inl rfl)

omit registered in
theorem flushKey_spec (found : executor.pending.get key = some pending) :
    Returns (Settles env closed executor key) (executor.flushKey env key) := by
  obtain ⟨settings, registered, -⟩ := sound.joins key pending found
  have idle := sound.idle key pending settings found registered
  unfold flushKey
  simp only [registered, found]
  rw [if_neg fun empty => idle.some_member.elim (fun some => some empty.2.1) fun some =>
    some empty.2.2]
  exact resolvePending_spec sound registered found (.inr rfl)

end Calls

/-- What an expected token meets at its coalesce. -/
theorem accept_eq (registered : env.settings name = some settings)
    (named : token.branchName = some branch) (expected : branch ∈ settings.branches)
    (grouped : token.forkGroupId = some groupId) (now : Int) :
    executor.accept env token name now =
      match executor.checkCompletion env (name, groupId) with
      | some known => known.acceptLate env (name, groupId) token
      | none => executor.acceptHeld env settings (name, groupId) branch token now := by
  unfold accept
  rw [registered]
  cases closed : executor.checkCompletion env (name, groupId) <;>
    simp only [named, expected, not_true_eq_false, if_false, grouped, closed]

/-- A token of a closed group is late. -/
theorem accept_late (sound : Sound env closed executor)
    (registered : env.settings name = some settings) (named : token.branchName = some branch)
    (expected : branch ∈ settings.branches) (grouped : token.forkGroupId = some groupId)
    (now : Int) (remembers : executor.Remembers (name, groupId)) :
    ∃ reason evidence next, executor.accept env token name now =
        .ok (⟨(name, groupId), .late reason token evidence⟩, next) ∧
      Sound env closed next ∧ next.pending = executor.pending := by
  rw [accept_eq registered named expected grouped]
  cases checked : executor.checkCompletion env (name, groupId) with
  | none => exact absurd remembers (checkCompletion_eq_none.mp checked)
  | some known =>
    obtain ⟨holds, pending, -, kept⟩ := sound.checkCompletion checked
    obtain ⟨next, ran, later, same, -⟩ := holds.acceptLate kept token
    have same := same.trans pending
    exact ⟨_, _, next, ran, ⟨later, same ▸ sound.idle⟩, same⟩

theorem notifyBranchLost_closed (sound : Sound env closed executor)
    (registered : env.settings name = some settings) (branch reason : String) (now : Int)
    (remembers : executor.Remembers (name, groupId)) :
    ∃ next, executor.notifyBranchLost env name groupId branch reason now = .ok (none, next) ∧
      Sound env closed next ∧ next.pending = executor.pending := by
  unfold notifyBranchLost
  rw [registered]
  cases checked : executor.checkCompletion env (name, groupId) with
  | none => exact absurd remembers (checkCompletion_eq_none.mp checked)
  | some known =>
    obtain ⟨holds, same, -, -⟩ := sound.checkCompletion checked
    exact ⟨known, rfl, ⟨holds, same ▸ sound.idle⟩, same⟩

/-- What a loss meets at an open group. -/
theorem notifyBranchLost_eq (registered : env.settings name = some settings)
    (expected : branch ∈ settings.branches) (reason : String) (now : Int)
    (open_ : ¬executor.Remembers (name, groupId)) :
    executor.notifyBranchLost env name groupId branch reason now =
      if branch ∈ (executor.waitingFor (name, groupId) now).branches.keys then
        .error ⟨.lostAfterArrival branch, executor⟩
      else if branch ∈ (executor.waitingFor (name, groupId) now).lostBranches.keys then
        .error ⟨.duplicateLoss branch, executor⟩
      else (executor.losing (name, groupId) branch reason now).evaluateAfterLoss env settings
        (name, groupId) := by
  unfold notifyBranchLost losing join waitingFor
  rw [registered, append_nil]
  simp only [checkCompletion_eq_none.mpr open_, expected, not_true_eq_false, if_false]
  cases executor.pending.get (name, groupId) <;> rfl

/-- Resolving pending groups one after another closes each of them. -/
theorem resolveAll_spec {resolve : Executor Row → Key →
      Except (Raised Row) (CoalesceOutcome Row × Executor Row)} {keys : List Key}
    (resolves : ∀ closed executor, Sound env closed executor → ∀ key ∈ keys, ∀ pending,
      executor.pending.get key = some pending →
        Returns (Settles env closed executor key) (resolve executor key))
    (distinct : keys.Nodup) (sound : Sound env closed executor)
    (listed : ∀ key ∈ keys, key ∈ executor.pending.keys) :
    Returns (fun outcomes next => Forall₂ (Resolves env executor) keys outcomes ∧
        Sound env (fun other => closed other ∨ other ∈ keys) next ∧
        ∀ other, next.pending.get other =
          if other ∈ keys then none else executor.pending.get other)
      (resolveAll resolve keys executor) := by
  induction keys generalizing executor closed with
  | nil => exact ⟨.nil, by simpa using sound, by simp⟩
  | cons key keys ih =>
    obtain ⟨pending, found⟩ := mem_keys.mp (listed key mem_cons_self)
    obtain ⟨apart, distinct⟩ := nodup_cons.mp distinct
    have first := resolves closed executor sound key mem_cons_self pending found
    unfold resolveAll
    cases ran : resolve executor key with
    | error =>
      rw [ran] at first
      exact first
    | ok result =>
      obtain ⟨outcome, next⟩ := result
      rw [ran] at first
      obtain ⟨closes, affects⟩ := first
      have still : ∀ other ∈ keys, next.pending.get other = executor.pending.get other := by
        intro other later
        rw [affects.gets, if_neg]
        rintro rfl
        exact apart later
      have rest := ih (fun closed executor sound key later => resolves closed executor sound key
        (mem_cons_of_mem _ later)) distinct affects.sound fun other later => by
          rw [Dict.mem_keys, still other later, ← Dict.mem_keys]
          exact listed other (mem_cons_of_mem _ later)
      cases later : resolveAll resolve keys next with
      | error =>
        rw [later] at rest
        simp only [bind, Except.bind, later]
        exact rest
      | ok result =>
        obtain ⟨outcomes, last⟩ := result
        rw [later] at rest
        obtain ⟨all, soundLast, gets⟩ := rest
        simp only [bind, Except.bind, later]
        refine ⟨.cons closes ?_, by simpa [or_assoc] using soundLast, fun other => ?_⟩
        · refine ((forall₂_and_left _ _).mpr ⟨still, all⟩).imp ?_
          rintro other outcome ⟨same, settings, pending, registered, found, closes⟩
          exact ⟨settings, pending, registered, same ▸ found, closes⟩
        · rw [gets, affects.gets]
          by_cases here : other = key <;> simp [here]

end Executor

end Elspeth.Coalesce
