import Elspeth.RowUnion.Releases

/-!
# Row union groups release all their branches or none

The calls a leader makes, one after another and in any order, keep the account of
`RowUnion.Releases`.  A crash loses the memory of the executor and may leave a token with an
open state that the call had only begun; the new leader restores from the open states alone.
-/

namespace Elspeth.RowUnion

open Collections Lineage Relational Executor Dict List BranchEntry

variable {Row : Type}

section Calls

variable {env : Environment} {outcomes : List (RowUnionOutcome Row)} {executor next : Executor Row}
  {key : Key} {settings : RowUnionSettings} {pending : PendingRowUnion Row}
  {closing : List (BranchEntry Row)} {token : Token Row} {stateId : Nat}

/-! ## Closing -/

theorem Executor.markCompleted_fits (executor : Executor Row) (key : Key) (reason : Reason) :
    (markCompleted env executor key reason).completedKeys.Fits (some env.maxCompletedKeys) :=
  fits_put _ _ _ _

section Entries

variable (tracks : Tracks env executor) (found : executor.pending.get key = some pending)
include tracks found

/-- The entries of a group have the open states. -/
theorem Tracks.isOpen_iff : executor.IsOpen key token stateId ↔
    ∃ entry ∈ pending.branches.values, entry.token = token ∧ entry.stateId = stateId := by
  constructor
  · intro open_
    obtain ⟨settings, branch, -, -, named, -⟩ := tracks.expected key token stateId open_
    obtain ⟨time, held⟩ := (tracks.held key branch token stateId).mpr ⟨open_, named⟩
    obtain ⟨_, same, here⟩ := lookup_eq_some.mp held
    rw [found] at same
    cases same
    exact ⟨_, mem_values.mpr ⟨branch, here⟩, rfl, rfl⟩
  · rintro ⟨⟨token, time, stateId⟩, mem, rfl, rfl⟩
    obtain ⟨branch, here⟩ := mem_values.mp mem
    exact ((tracks.held key branch token stateId).mp
      ⟨time, lookup_eq_some.mpr ⟨pending, found, here⟩⟩).1

/-- The held tokens of a group are different tokens. -/
theorem Tracks.nodup_ids :
    (pending.branches.values.map fun entry => (key, entry.token.tokenId)).Nodup := by
  unfold values
  rw [map_map]
  refine (Nodup.of_map Prod.fst pending.branches.nodup).map_on ?_
  rintro ⟨first, entry⟩ listed ⟨second, other⟩ listed' same
  obtain ⟨⟨_, state⟩, named⟩ := (tracks.held key first entry.token entry.stateId).mp
    ⟨_, lookup_eq_some.mpr ⟨pending, found, get_eq_some.mpr listed⟩⟩
  obtain ⟨⟨_, state'⟩, named'⟩ := (tracks.held key second other.token other.stateId).mp
    ⟨_, lookup_eq_some.mpr ⟨pending, found, get_eq_some.mpr listed'⟩⟩
  have one := inj_on_of_nodup_map tracks.distinct (mem_of_getElem? state)
    (mem_of_getElem? state') same
  have token : entry.token = other.token := congrArg NodeState.token one
  -- The branch of an entry is that of its token.
  rw [token, named'] at named
  cases named
  cases (get_eq_some.mpr listed).symm.trans (get_eq_some.mpr listed')
  rfl

variable (whole : closing.Perm pending.branches.values)
include whole

theorem Tracks.perm_openIds :
    (closing.map fun entry => (key, entry.token.tokenId)).Perm
      (openIds key executor.landscape.nodeStates) := by
  refine (whole.map _).trans ((perm_ext_iff_of_nodup (tracks.nodup_ids found)
    (tracks.distinct.sublist (filter_sublist.map _))).mpr fun id => ?_)
  rw [mem_map, mem_map]
  constructor
  · rintro ⟨entry, mine, rfl⟩
    obtain ⟨blockedAt, state⟩ := (tracks.isOpen_iff found).mpr ⟨entry, mine, rfl, rfl⟩
    exact ⟨_, mem_filter.mpr ⟨mem_of_getElem? state, by simp⟩, rfl⟩
  · rintro ⟨state, mem, rfl⟩
    obtain ⟨here, open_⟩ := mem_filter.mp mem
    obtain ⟨rfl, pends⟩ := of_decide_eq_true open_
    obtain ⟨position, there⟩ := mem_iff_getElem?.mp here
    obtain ⟨entry, mine, token, -⟩ :=
      (tracks.isOpen_iff found).mp ⟨state.blockedAt, by rw [there, ← pends]⟩
    exact ⟨entry, mine, by rw [token]; rfl⟩

theorem Tracks.settle_entries (status : StateStatus) :
    settle status (closing.map BranchEntry.stateId) executor.landscape.nodeStates =
      closeGroup key status executor.landscape.nodeStates := by
  refine settle_eq_closeGroup fun position state there => ?_
  rw [(whole.map _).mem_iff, mem_map]
  constructor
  · rintro ⟨entry, mine, rfl⟩
    obtain ⟨blockedAt, open_⟩ := (tracks.isOpen_iff found).mpr ⟨entry, mine, rfl, rfl⟩
    rw [there, Option.some.injEq] at open_
    subst open_
    exact ⟨rfl, rfl⟩
  · rintro ⟨rfl, pends⟩
    obtain ⟨entry, mine, -, same⟩ :=
      (tracks.isOpen_iff found).mp ⟨state.blockedAt, by rw [there, ← pends]⟩
    exact ⟨entry, mine, same⟩

end Entries

/-- A pending group fails. -/
theorem Tallied.failPending (tallied : Tallied env outcomes executor)
    (found : executor.pending.get key = some pending) (reason : Reason) :
    ∃ next, failPending env executor key reason =
        .ok (⟨key, .failed reason pending.tokens⟩, next) ∧ Closed key .failed executor next ∧
      Tallied env (outcomes ++ [⟨key, .failed reason pending.tokens⟩]) next := by
  have decides : ∀ other, decidedIds other [⟨key, .failed reason pending.tokens⟩] =
      if .failed = other then pending.branches.values.map fun entry => (key, entry.token.tokenId)
      else [] := by
    intro other
    cases other <;> simp [decidedIds, RowUnionOutcome.decided, PendingRowUnion.tokens]
  unfold Executor.failPending
  rw [found]
  simp only [foldl_fail]
  have closed := tallied.settle_entries found (.refl _) .failed
  refine ⟨_, rfl, ⟨rfl, closed⟩, tallied.close ⟨rfl, closed⟩ (by simp) (fun other _ => ?_) ?_
    (tallied.toReleases.quiet (by rintro ⟨_, ⟨⟩⟩)) (markCompleted_fits _ _ _)⟩
  · rw [decides]
    split
    · exact tallied.perm_openIds found (.refl _)
    · exact .refl _
  · rw [decides, if_pos rfl, map_map, map_map]
    rfl

/-! ## Releasing -/

theorem Popped.tokenId {groupId : String} {original released : Token Row}
    (popped : Popped groupId original released) : released.tokenId = original.tokenId := by
  obtain ⟨_, _, _, _, _, _, _, rfl⟩ := popped
  rfl

/-- The tokens of one group lose its FORK frame. -/
theorem popReleasedGroup_ok {groupId : String} {tokens : List (Token Row)}
    (some_token : tokens ≠ [])
    (grouped : ∀ token ∈ tokens, Coalesce.Token.forkGroupId token = some groupId) :
    ∃ released, popReleasedGroup tokens = .ok released ∧
        Forall₂ (Popped groupId) tokens released := by
  have frames : ∀ token ∈ tokens, ∃ frame, innermostForkFrame token.lineagePath = some frame ∧
      frame.groupId = groupId := by
    intro token listed
    exact Option.map_eq_some_iff.mp (grouped token listed)
  have groups : tokens.mapM releasedGroupId = .ok (tokens.map fun _ => groupId) := by
    refine mapM_eq_ok.mpr (forall₂_map_right_iff.mpr (forall₂_same.mpr fun token listed => ?_))
    obtain ⟨frame, innermost, same⟩ := frames token listed
    unfold releasedGroupId
    rw [innermost, ← same]
  have single : (tokens.map fun _ => groupId).dedup = [groupId] := by
    rw [map_const', replicate_dedup]
    simpa using some_token
  have pops : ∀ token ∈ tokens, ∃ released, popReleased groupId token = .ok released ∧
      Popped groupId token released := by
    intro token listed
    obtain ⟨frame, innermost, same⟩ := frames token listed
    obtain ⟨below, above, whole, popped⟩ := popForkFrame_innermost innermost
    have fork : frame.kind = .fork := by
      simpa using find?_some innermost
    have named : some frame.memberKey = Coalesce.Token.branchName token := by
      unfold Coalesce.Token.branchName pathBranchName
      rw [innermost, Option.map_some]
    refine ⟨{ token with lineagePath := below ++ above }, ?_, below, frame, above, whole, fork,
      same,
      named, rfl⟩
    unfold popReleased
    rw [← same, popped]
  obtain ⟨released, collected, popped⟩ := mapM_ok_of_forall pops
  refine ⟨released, ?_, popped⟩
  simp only [popReleasedGroup, groups, bind, Except.bind, single]
  exact collected

/-- The entries of a complete group, one for each declared branch. -/
theorem releasedEntries_of_complete (complete : Executor.Complete settings pending) :
    (releasedEntries settings pending).Perm pending.branches.values ∧
      Forall₂ (fun branch entry => pending.branches.get branch = some entry) settings.branches
        (releasedEntries settings pending) := by
  unfold releasedEntries
  refine ⟨filterMap_get_perm settings.nodup_branches complete.1, ?_⟩
  have all := complete.2
  generalize settings.branches = branches at all
  induction branches with
  | nil => exact .nil
  | cons branch branches ih =>
    obtain ⟨entry, found⟩ := mem_keys.mp (all branch mem_cons_self)
    rw [filterMap_cons_some found]
    exact .cons found (ih fun other listed => all other (mem_cons_of_mem _ listed))

theorem Executor.IsOpen.mem_arrivals (open_ : executor.IsOpen key token stateId) :
    (key, token) ∈ executor.arrivals := by
  obtain ⟨blockedAt, found⟩ := open_
  exact mem_map.mpr ⟨_, mem_of_getElem? found, rfl⟩

/-- A complete group is released. -/
theorem Tallied.executeRelease (tallied : Tallied env outcomes executor)
    (registered : env.settings key.1 = some settings)
    (found : executor.pending.get key = some pending)
    (complete : Executor.Complete settings pending) (unreleased : executor.Unreleased key) :
    ∃ released next, executeRelease env executor settings key pending =
        .ok (⟨key, .released released⟩, next) ∧ Closed key .completed executor next ∧
      Tallied env (outcomes ++ [⟨key, .released released⟩]) next := by
  obtain ⟨whole, in_order⟩ := releasedEntries_of_complete complete
  have opened : ∀ entry ∈ releasedEntries settings pending,
      executor.IsOpen key entry.token entry.stateId := fun entry mine =>
    (tallied.isOpen_iff found).mpr ⟨entry, whole.mem_iff.mp mine, rfl, rfl⟩
  have nonempty : releasedEntries settings pending ≠ [] := by
    intro empty
    have same := in_order.length_eq
    rw [empty, length_nil] at same
    have := settings.two_le_branches
    omega
  have grouped : ∀ token ∈ (releasedEntries settings pending).map BranchEntry.token,
      Coalesce.Token.forkGroupId token = some key.2 := by
    intro token listed
    obtain ⟨entry, mine, rfl⟩ := mem_map.mp listed
    obtain ⟨_, _, _, _, _, group⟩ := tallied.expected _ _ _ (opened entry mine)
    exact group
  obtain ⟨released, ran, popped⟩ := popReleasedGroup_ok (by simpa using nonempty) grouped
  have release : Whole env executor.arrivals key released := by
    refine ⟨settings, registered, _, ?_, fun original listed => ?_, popped⟩
    · rw [map_map]
      refine map_eq_of_forall₂ (fun branch entry here => ?_) in_order
      exact ((tallied.held key branch entry.token entry.stateId).mp
        ⟨_, lookup_eq_some.mpr ⟨pending, found, here⟩⟩).2
    · obtain ⟨entry, mine, rfl⟩ := mem_map.mp listed
      exact (opened entry mine).mem_arrivals
  have ids : (released.map fun token => (key, token.tokenId)) =
      (releasedEntries settings pending).map fun entry => (key, entry.token.tokenId) := by
    rw [map_eq_of_forall₂ (fun _ _ pops => by rw [Popped.tokenId pops]) popped, map_map]
    rfl
  unfold Executor.executeRelease
  simp only [ran, foldl_completeNodeState]
  have closed := tallied.settle_entries found whole .completed
  refine ⟨released, _, rfl, ⟨rfl, closed⟩,
    tallied.close ⟨rfl, closed⟩ (by simp) (fun other done => ?_)
    (append_nil _).symm (tallied.toReleases.concat ?_ ?_) (markCompleted_fits _ _ _)⟩
  · cases other with
    | pending => exact absurd rfl done
    | completed =>
      simpa [decidedIds, RowUnionOutcome.decided, ids] using tallied.perm_openIds found whole
    | failed => exact .refl _
  · rintro _ ⟨⟩
    exact release
  · exact fun _ first listed => tallied.not_isRelease unreleased listed

/-! ## Arrivals -/

/-- A closed group is remembered with its reason, once its closure was looked up. -/
theorem Executor.checkCompletion_cases
    (fits : executor.completedKeys.Fits (some env.maxCompletedKeys)) (key : Key) :
    checkCompletion env executor key = none ∧ executor.Unreleased key ∨
    ∃ known reason, checkCompletion env executor key = some known ∧
      known.pending = executor.pending ∧ known.landscape = executor.landscape ∧
      known.completedKeys.Fits (some env.maxCompletedKeys) ∧
      known.completedKeys.get key = some reason := by
  unfold checkCompletion
  by_cases cached : key ∈ executor.completedKeys.keys
  · obtain ⟨reason, found⟩ := mem_keys.mp cached
    exact .inr ⟨executor, reason, if_pos cached, rfl, rfl, fits, found⟩
  · rw [if_neg cached]
    cases closed : executor.hasCompletedGroup key with
    | false =>
      refine .inl ⟨rfl, fun state mem same completed => ?_⟩
      simpa [same, completed] using any_eq_false.mp closed state mem
    | true =>
      exact .inr ⟨_, _, rfl, rfl, rfl, markCompleted_fits _ _ _, get_put_self fits _ _⟩

/-- A call that raises loses nothing, and one that returns adds what it returns and begins a
state for each of some arrivals. -/
def Keeps (env : Environment) (outcomes : List (RowUnionOutcome Row)) (executor : Executor Row)
    (begun : List (Key × Token Row)) {α : Type} (listed : α → List (RowUnionOutcome Row)) :
    Except (Raised Row) (α × Executor Row) → Prop
  | .ok (result, next) =>
    Sound env (outcomes ++ listed result) next ∧ next.arrivals = executor.arrivals ++ begun
  | .error raised => Sound env outcomes raised.executor ∧
    raised.executor.arrivals = executor.arrivals

theorem Sound.remember (sound : Sound env outcomes executor)
    (pending : next.pending = executor.pending) (landscape : next.landscape = executor.landscape)
    (fits : next.completedKeys.Fits (some env.maxCompletedKeys)) : Sound env outcomes next :=
  sound.of_resembles ⟨by rw [landscape], by rw [landscape], fits, fun _ _ _ _ => by
    rw [Waits, entry, pending]
    rfl⟩

theorem Executor.arrivals_congr (landscape : next.landscape = executor.landscape) :
    next.arrivals = executor.arrivals := by
  rw [arrivals, landscape, arrivals]

section Arrival

variable (sound : Sound env outcomes executor)
  (fresh : (key, token.tokenId) ∉ executor.landscape.nodeStates.map NodeState.ident)
include sound fresh

theorem Sound.failLateArrival (now : Int) (reason : Reason) :
    Keeps env outcomes executor [(key, token)] ([·])
      (.ok (failLateArrival executor key token now reason)) := by
  have states : (Executor.failLateArrival executor key token now reason).2.landscape.nodeStates =
      executor.landscape.nodeStates ++ [⟨key, token, now, .failed⟩] :=
    modify_concat ..
  refine ⟨⟨sound.toTallied.late fresh rfl states rfl sound.fits, ?_⟩, arrivals_concat states⟩
  intro other found stateId open_
  have before := ((isOpen_concat states).mp open_).resolve_right (by simp)
  exact (sound.unreleased other found stateId before).concat states (by simp)

/-- A token of an open group is held, and completes its group if it is the last. -/
theorem Sound.acceptHeld {branch : String} (registered : env.settings key.1 = some settings)
    (expected : branch ∈ settings.branches) (named : token.branchName = some branch)
    (grouped : token.forkGroupId = some key.2)
    (unreleased : executor.Unreleased key) (now : Int) :
    Keeps env outcomes executor [(key, token)] ([·])
      (acceptHeld env executor settings key branch token now) := by
  unfold Executor.acceptHeld
  simp only
  split
  next duplicate =>
    -- A duplicate arrival only moves the anchor of the timeout.
    refine ⟨sound.of_resembles ⟨rfl, rfl, sound.fits, fun other name _ _ => ?_⟩, rfl⟩
    unfold Waits entry
    rw [lookup_set]
    split
    · next same => rw [same, get_branches_getD]
    · rfl
  next vacant =>
    have vacant : executor.entry key branch = none :=
      (get_branches_getD now).symm.trans (get_eq_none.mpr vacant)
    let waits := min now ((executor.pending.get key).getD ⟨.empty, now⟩).firstArrival
    have states : (executor.hold key branch token now waits).landscape.nodeStates =
      executor.landscape.nodeStates ++ [⟨key, token, now, .pending⟩] := rfl
    have unreleased := unreleased.concat states (by simp)
    have holds : Sound env outcomes (executor.hold key branch token now waits) := by
      refine ⟨sound.toTallied.hold ⟨settings, branch, registered, expected, named, grouped⟩ named
        vacant fresh, fun other found stateId open_ => ?_⟩
      rcases (isOpen_concat states).mp open_ with old | ⟨-, rfl, -, -⟩
      · exact (sound.unreleased other found stateId old).concat states (by simp)
      · exact unreleased
    have begun := arrivals_concat states
    split
    next complete =>
      obtain ⟨released, next, ran, closed, tallied⟩ :=
        holds.toTallied.executeRelease registered (get_set_self ..) complete unreleased
      exact ran ▸ ⟨closed.sound (by simp) holds tallied, closed.arrivals.trans begun⟩
    · exact ⟨⟨holds.toTallied.silent rfl, holds.unreleased⟩, begun⟩

end Arrival

/-- The group and the token of an arrival at a union. -/
def arrivalAt (name : String) (token : Token Row) : Option (Key × Token Row) :=
  token.forkGroupId.map fun groupId => ((name, groupId), token)

/-- The token has not come to its group at the union before. -/
def New (arrivals : List (Key × Token Row)) (name : String) (token : Token Row) : Prop :=
  ∀ groupId, token.forkGroupId = some groupId →
    ∀ before ∈ arrivals, (before.1, before.2.tokenId) ≠ ((name, groupId), token.tokenId)

theorem New.fresh {name groupId : String} (new : New executor.arrivals name token)
    (grouped : token.forkGroupId = some groupId) :
    ((name, groupId), token.tokenId) ∉ executor.landscape.nodeStates.map NodeState.ident := by
  intro listed
  obtain ⟨state, here, same⟩ := mem_map.mp listed
  exact new groupId grouped (state.key, state.token) (mem_map.mpr ⟨state, here, rfl⟩) same

/-- Whatever an arrival does keeps the account. -/
theorem Sound.accept {name : String} (sound : Sound env outcomes executor)
    (new : New executor.arrivals name token) (now : Int) :
    Keeps env outcomes executor (arrivalAt name token).toList ([·])
      (accept env executor token name now) := by
  unfold Executor.accept
  split
  · exact ⟨sound, rfl⟩
  next settings registered =>
  split
  · exact ⟨sound, rfl⟩
  next branch named =>
  split
  · exact ⟨sound, rfl⟩
  next expected =>
  unfold arrivalAt
  split
  · exact ⟨sound, rfl⟩
  next groupId grouped =>
  rw [grouped]
  have fresh := new.fresh grouped
  rcases checkCompletion_cases sound.fits (name, groupId) with
    ⟨unknown, unreleased⟩ | ⟨known, reason, looked, pending, landscape, fits, found⟩
  · rw [unknown]
    simp only
    split
    · have marked : Sound env outcomes (markCompleted env executor (name, groupId) .branchLost) :=
        sound.remember rfl rfl (markCompleted_fits _ _ _)
      exact marked.failLateArrival fresh now .branchLost
    · exact sound.acceptHeld fresh registered (not_not.mp expected) named grouped unreleased now
  · rw [looked]
    simp only [found]
    have late := (sound.remember pending landscape fits).failLateArrival
      (landscape.symm ▸ fresh) now reason
    exact ⟨late.1, late.2.trans (congrArg (· ++ _) (arrivals_congr landscape))⟩

/-! ## Losses, timeouts and the end of input -/

/-- Some groups have failed, and nothing else has happened. -/
structure Fails (keys : List Key) (executor last : Executor Row) : Prop where
  left : ∀ other, last.pending.get other = if other ∈ keys then none else executor.pending.get other
  arrivals : last.arrivals = executor.arrivals
  opened : ∀ other token stateId, last.IsOpen other token stateId →
    other ∉ keys ∧ executor.IsOpen other token stateId
  unreleased : ∀ other, executor.Unreleased other → last.Unreleased other

theorem Fails.refl (executor : Executor Row) : Fails [] executor executor :=
  ⟨fun _ => rfl, rfl, fun _ _ _ open_ => ⟨not_mem_nil, open_⟩, fun _ before => before⟩

theorem Closed.fails (closed : Closed key .failed executor next) : Fails [key] executor next where
  left other := by
    rw [closed.pending, get_erase]
    simp
  arrivals := closed.arrivals
  opened other token stateId open_ := by
    obtain ⟨apart, before⟩ := (closed.isOpen (by simp)).mp open_
    exact ⟨fun mine => apart (mem_singleton.mp mine), before⟩
  unreleased _ := closed.unreleased fun _ => by simp

theorem Fails.cons {keys : List Key} {last : Executor Row} (first : Fails [key] executor next)
    (rest : Fails keys next last) : Fails (key :: keys) executor last where
  left other := by
    rw [rest.left, first.left]
    by_cases here : other = key <;> simp [here]
  arrivals := rest.arrivals.trans first.arrivals
  opened other token stateId open_ := by
    obtain ⟨later, between⟩ := rest.opened other token stateId open_
    obtain ⟨apart, before⟩ := first.opened other token stateId between
    exact ⟨not_mem_cons_of_ne_of_not_mem (fun same => apart (mem_singleton.mpr same)) later, before⟩
  unreleased other before := rest.unreleased other (first.unreleased other before)

theorem Fails.sound {keys : List Key} {last : Executor Row} (fails : Fails keys executor last)
    (tallied : Tallied env outcomes last)
    (before : ∀ other token stateId, other ∉ keys → executor.IsOpen other token stateId →
      executor.Unreleased other) : Sound env outcomes last where
  toTallied := tallied
  unreleased other token stateId open_ := by
    obtain ⟨kept, held⟩ := fails.opened other token stateId open_
    exact fails.unreleased other (before other token stateId kept held)

/-- Failing some pending groups in turn closes exactly these. -/
theorem Tallied.closeEach {α : Type} {groupOf : α → Key} {items : List α}
    {close : α → Executor Row → Except (Raised Row) (RowUnionOutcome Row × Executor Row)}
    (closes : ∀ {item outcomes executor pending}, Tallied env outcomes executor →
      executor.pending.get (groupOf item) = some pending → ∃ outcome next,
        close item executor = .ok (outcome, next) ∧ Fails [groupOf item] executor next ∧
          Tallied env (outcomes ++ [outcome]) next)
    (tallied : Tallied env outcomes executor) (distinct : (items.map groupOf).Nodup)
    (waiting : ∀ key ∈ items.map groupOf, key ∈ executor.pending.keys) :
    ∃ results last, closeEach close items executor = .ok (results, last) ∧
      Tallied env (outcomes ++ results) last ∧ Fails (items.map groupOf) executor last := by
  induction items generalizing outcomes executor with
  | nil => exact ⟨[], executor, rfl, by rwa [append_nil], .refl executor⟩
  | cons item items ih =>
    obtain ⟨own, rest⟩ := nodup_cons.mp distinct
    obtain ⟨pending, found⟩ := mem_keys.mp (waiting (groupOf item) mem_cons_self)
    obtain ⟨outcome, next, ran, first, after⟩ := closes tallied found
    have others : ∀ key ∈ items.map groupOf, key ∈ next.pending.keys := by
      intro key listed
      obtain ⟨pending, held⟩ := mem_keys.mp (waiting key (mem_cons_of_mem _ listed))
      have apart : key ∉ [groupOf item] := fun same => own (mem_singleton.mp same ▸ listed)
      exact mem_keys_of_get (by rw [first.left, if_neg apart, held])
    obtain ⟨results, last, ran', kept, later⟩ := ih after rest others
    refine ⟨outcome :: results, last, ?_, by rwa [append_assoc] at kept, first.cons later⟩
    rw [Executor.closeEach, ran]
    simp only [bind, Except.bind, ran']
    rfl

section

variable (sound : Sound env outcomes executor)
include sound

theorem Sound.failAll {keys : List Key} (reason : Reason) (distinct : keys.Nodup)
    (waiting : ∀ key ∈ keys, key ∈ executor.pending.keys) :
    ∃ results last, failAll env reason keys executor = .ok (results, last) ∧
      Sound env (outcomes ++ results) last ∧ Fails keys executor last := by
  rw [← map_id keys] at distinct waiting
  obtain ⟨results, last, ran, tallied, fails⟩ := sound.toTallied.closeEach
    (fun tallied found => by
      obtain ⟨next, ran, closed, after⟩ := tallied.failPending found reason
      exact ⟨_, next, ran, closed.fails, after⟩) distinct waiting
  rw [map_id] at fails
  exact ⟨results, last, ran,
    fails.sound tallied fun other token stateId _ => sound.unreleased other token stateId, fails⟩

theorem Sound.notifyBranchLost (name groupId lostBranch : String) :
    Keeps env outcomes executor [] Option.toList
      (notifyBranchLost env executor name groupId lostBranch) := by
  unfold Executor.notifyBranchLost
  cases env.settings name with
  | none => exact ⟨sound, rfl⟩
  | some =>
    rcases checkCompletion_cases sound.fits (name, groupId) with
      ⟨unknown, -⟩ | ⟨known, reason, looked, pending, landscape, fits, -⟩
    · have remembers : Sound env outcomes
          (rememberBranchLoss env executor (name, groupId) lostBranch) :=
        sound.remember rfl rfl sound.fits
      simp only [unknown]
      by_cases waits : (name, groupId) ∈
          (rememberBranchLoss env executor (name, groupId) lostBranch).pending.keys
      · rw [if_neg (not_not.mpr waits)]
        obtain ⟨pending, found⟩ := mem_keys.mp waits
        obtain ⟨next, ran, closed, tallied⟩ := remembers.toTallied.failPending found .branchLost
        rw [ran]
        exact ⟨closed.sound (by simp) remembers tallied, closed.arrivals.trans (append_nil _).symm⟩
      · rw [if_pos waits]
        refine ⟨?_, (append_nil _).symm⟩
        rw [Option.toList_none, append_nil]
        exact remembers.remember rfl rfl (markCompleted_fits _ _ _)
    · simp only [looked]
      exact ⟨(append_nil outcomes).symm ▸ sound.remember pending landscape fits,
        (arrivals_congr landscape).trans (append_nil _).symm⟩

theorem Sound.checkTimeouts (name : String) (now : Int) :
    Keeps env outcomes executor [] id (checkTimeouts env executor name now) := by
  unfold Executor.checkTimeouts
  cases env.settings name with
  | none => exact ⟨sound, rfl⟩
  | some settings =>
    simp only
    cases settings.timeoutSeconds with
    | none => exact ⟨(append_nil outcomes).symm ▸ sound, (append_nil _).symm⟩
    | some timeout =>
      have among : (executor.timedOut name timeout now).Sublist executor.pending.keys :=
        filter_sublist.map _
      obtain ⟨results, last, ran, kept, fails⟩ := sound.failAll .timeout
        (among.nodup executor.pending.nodup) fun key listed => among.subset listed
      simp only [ran]
      exact ⟨kept, fails.arrivals.trans (append_nil _).symm⟩

/-- The end of input fails what is held. -/
theorem Sound.flushPending :
    ∃ results last, flushPending env executor = .ok (results, last) ∧
      Sound env (outcomes ++ results) last ∧ last.arrivals = executor.arrivals ∧
      ∀ key, last.pending.get key = none := by
  obtain ⟨results, last, ran, kept, fails⟩ :=
    sound.failAll .incompleteAtFlush executor.pending.nodup_keys fun _ listed => listed
  refine ⟨results, last, ran, kept, fails.arrivals, fun key => ?_⟩
  rw [fails.left]
  split
  · rfl
  · next unlisted => exact get_eq_none.mpr unlisted

end

/-! ## Restoring -/

/-- The open node states, as the journal restores them with the clock of a new leader. -/
def openHolds (arrival : Int → Int) (states : List (NodeState Row)) : List (RestoreEntry Row) :=
  (states.zipIdx.filter fun (state, _) => state.status = .pending).map fun (state, position) =>
    ⟨state.token, state.key.1, some position, arrival state.blockedAt⟩

theorem mem_openHolds {arrival : Int → Int} {hold : RestoreEntry Row}
    {states : List (NodeState Row)} : hold ∈ openHolds arrival states ↔
    ∃ (position : Nat) (state : NodeState Row),
      states[position]? = some state ∧ state.status = .pending ∧
      hold = ⟨state.token, state.key.1, some position, arrival state.blockedAt⟩ := by
  unfold openHolds
  rw [mem_map]
  constructor
  · rintro ⟨⟨state, position⟩, listed, rfl⟩
    obtain ⟨indexed, open_⟩ := mem_filter.mp listed
    exact ⟨position, state, mem_zipIdx_iff_getElem?.mp indexed, by simpa using open_, rfl⟩
  · rintro ⟨position, state, found, open_, rfl⟩
    exact ⟨(state, position), mem_filter.mpr
      ⟨mem_zipIdx_iff_getElem?.mpr found, by simpa using open_⟩, rfl⟩

theorem nodup_openHolds (arrival : Int → Int) (states : List (NodeState Row)) :
    (openHolds arrival states).Nodup := by
  have positions : (states.zipIdx.map Prod.snd).Nodup := by
    rw [zipIdx_map_snd]
    exact nodup_range'
  have indexed : ((states.zipIdx.filter fun (state, _) =>
    state.status = .pending).map Prod.snd).Nodup :=
    positions.sublist (filter_sublist.map _)
  refine Nodup.of_map RestoreEntry.stateId ?_
  unfold openHolds
  rw [map_map]
  have same : (RestoreEntry.stateId ∘ fun (pair : NodeState Row × Nat) =>
      (⟨pair.1.token, pair.1.key.1, some pair.2, arrival pair.1.blockedAt⟩ : RestoreEntry Row)) =
      some ∘ Prod.snd := rfl
  rw [same, ← map_map]
  exact indexed.map (Option.some_injective _)

/-- The branch that a hold restores. -/
def RestoreEntry.slot (hold : RestoreEntry Row) : String × Option String × Option String :=
  (hold.rowUnionName, hold.token.forkGroupId, hold.token.branchName)

/-- The groups that some holds restore. -/
structure Restores (restored : Dict Key (PendingRowUnion Row)) (holds : List (RestoreEntry Row)) :
    Prop where
  entries : ∀ key branch token time stateId,
    lookup restored key branch = some ⟨token, time, stateId⟩ ↔
      ⟨token, key.1, some stateId, time⟩ ∈ holds ∧ token.forkGroupId = some key.2 ∧
        token.branchName = some branch
  filled : ∀ key ∈ restored.keys, ∃ branch entry, lookup restored key branch = some entry

/-- A hold of a branch that is not there yet is added. -/
theorem Restores.restoreEntry {restored : Dict Key (PendingRowUnion Row)}
    {holds : List (RestoreEntry Row)} {time : Int} (restores : Restores restored holds)
    (expected : Expected env key token)
    (new : (⟨token, key.1, some stateId, time⟩ : RestoreEntry Row).slot ∉
      holds.map RestoreEntry.slot) :
    ∃ next, RowUnion.restoreEntry env restored ⟨token, key.1, some stateId, time⟩ = .ok next ∧
      Restores next (holds ++ [⟨token, key.1, some stateId, time⟩]) := by
  obtain ⟨settings, branch, registered, declared, named, grouped⟩ := expected
  have vacant : lookup restored key branch = none := by
    refine Option.eq_none_iff_forall_ne_some.mpr fun entry here => new ?_
    obtain ⟨listed, group, name⟩ := (restores.entries key branch _ _ _).mp here
    exact mem_map.mpr ⟨_, listed, by simp [RestoreEntry.slot, group, name, grouped, named]⟩
  have free := get_eq_none.mp ((get_branches_getD time).trans vacant)
  unfold RowUnion.restoreEntry
  simp only [registered, named, grouped, if_neg (not_not.mpr declared), if_neg free]
  refine ⟨_, rfl, fun other name found time' stateId' => ?_, fun other known => ?_⟩
  · rw [lookup_set_branch, mem_append, mem_singleton]
    by_cases here : other = key ∧ name = branch
    · obtain ⟨rfl, rfl⟩ := here
      rw [if_pos ⟨rfl, rfl⟩]
      constructor
      · rintro ⟨⟩
        exact ⟨.inr rfl, grouped, named⟩
      · rintro ⟨old | same, group, name⟩
        · have there := (restores.entries _ _ _ _ _).mpr ⟨old, group, name⟩
          rw [vacant] at there
          cases there
        · cases same
          rfl
    · rw [if_neg here, restores.entries]
      refine and_congr_left fun both => (or_iff_left fun same => here ?_).symm
      obtain ⟨rfl, union, -, -⟩ := RestoreEntry.mk.inj same
      exact ⟨Prod.ext union (Option.some.inj (both.1.symm.trans grouped)),
        Option.some.inj (both.2.symm.trans named)⟩
  · by_cases here : other = key
    · exact ⟨branch, _, by rw [lookup_set_branch, if_pos ⟨here, rfl⟩]⟩
    · obtain ⟨name, found, there⟩ := restores.filled other
        ((mem_keys_set.mp known).resolve_left here)
      exact ⟨name, found, by rw [lookup_set_branch, if_neg fun both => here both.1, there]⟩

/-- The holds of different branches are all restored. -/
theorem exists_restores {holds : List (RestoreEntry Row)}
    (slots : (holds.map RestoreEntry.slot).Nodup)
    (valid : ∀ hold ∈ holds, ∃ key token stateId time, Expected env key token ∧
      hold = ⟨token, key.1, some stateId, time⟩) :
    ∃ restored, holds.foldlM (RowUnion.restoreEntry env) .empty = .ok restored ∧
      Restores restored holds := by
  induction holds using reverseRecOn with
  | nil => exact ⟨.empty, rfl, fun _ _ _ _ _ => iff_of_false nofun (not_mem_nil ·.1), nofun⟩
  | append_singleton holds hold ih =>
    rw [map_append] at slots
    obtain ⟨restored, ran, restores⟩ := ih slots.of_append_left fun other listed =>
      valid other (mem_append_left _ listed)
    obtain ⟨key, token, stateId, time, expected, rfl⟩ := valid hold (by simp)
    obtain ⟨next, step, more⟩ := restores.restoreEntry expected
      (disjoint_right.mp (disjoint_of_nodup_append slots) mem_cons_self)
    refine ⟨next, ?_, more⟩
    rw [foldlM_append, ran]
    show (RowUnion.restoreEntry env restored _ >>= pure) = _
    rw [step]
    rfl

section Holds

variable {arrival : Int → Int} (tracks : Tracks env executor)
include tracks

/-- The holds of a group are those of its open states. -/
theorem Tracks.exists_hold_iff (arrival : Int → Int) :
    (∃ time, ⟨token, key.1, some stateId, time⟩ ∈ openHolds arrival executor.landscape.nodeStates) ∧
      token.forkGroupId = some key.2 ↔ executor.IsOpen key token stateId := by
  constructor
  · rintro ⟨⟨time, listed⟩, group⟩
    obtain ⟨position, state, found, open_, same⟩ := mem_openHolds.mp listed
    obtain ⟨rfl, union, position, -⟩ := RestoreEntry.mk.inj same
    cases position
    have opened : executor.IsOpen state.key state.token stateId :=
      ⟨state.blockedAt, by rw [found, ← open_]⟩
    obtain ⟨_, _, _, _, _, grouped⟩ := tracks.expected _ _ _ opened
    rwa [Prod.ext union (Option.some.inj (group.symm.trans grouped))]
  · intro open_
    obtain ⟨_, _, _, _, _, grouped⟩ := tracks.expected _ _ _ open_
    obtain ⟨blockedAt, found⟩ := open_
    exact ⟨⟨_, mem_openHolds.mpr ⟨_, _, found, rfl, rfl⟩⟩, grouped⟩

theorem Tracks.nodup_slots :
    ((openHolds arrival executor.landscape.nodeStates).map RestoreEntry.slot).Nodup := by
  refine (nodup_openHolds _ _).map_on fun first here second there same => ?_
  obtain ⟨position, state, found, open_, rfl⟩ := mem_openHolds.mp here
  obtain ⟨position', state', found', open_', rfl⟩ := mem_openHolds.mp there
  have opened : executor.IsOpen state.key state.token position :=
    ⟨state.blockedAt, by rw [found, ← open_]⟩
  have opened' : executor.IsOpen state'.key state'.token position' :=
    ⟨state'.blockedAt, by rw [found', ← open_']⟩
  obtain ⟨_, branch, _, _, named, grouped⟩ := tracks.expected _ _ _ opened
  obtain ⟨_, branch', _, _, named', grouped'⟩ := tracks.expected _ _ _ opened'
  simp only [RestoreEntry.slot, grouped, grouped', named, named', Prod.mk.injEq,
    Option.some.injEq] at same
  obtain ⟨union, group, rfl⟩ := same
  obtain ⟨_, held⟩ := (tracks.held _ _ _ _).mpr ⟨opened, named⟩
  obtain ⟨_, held'⟩ := (tracks.held _ _ _ _).mpr ⟨opened', named'⟩
  rw [Prod.ext union group, held', Option.some.injEq] at held
  obtain ⟨-, -, rfl⟩ := BranchEntry.mk.inj held
  rw [found, Option.some.injEq] at found'
  rw [found']

/-- The open states of a landscape restore the holds, in whatever order they are read. -/
theorem Tracks.restores {holds : List (RestoreEntry Row)}
    (shuffled : holds.Perm (openHolds arrival executor.landscape.nodeStates)) :
    ∃ restored, holds.foldlM (RowUnion.restoreEntry env) .empty = .ok restored ∧
      Restores restored holds := by
  refine exists_restores ((shuffled.map _).nodup_iff.mpr tracks.nodup_slots) fun hold listed => ?_
  obtain ⟨position, state, found, open_, rfl⟩ := mem_openHolds.mp (shuffled.mem_iff.mp listed)
  exact ⟨state.key, state.token, position, _,
    tracks.expected _ _ _ ⟨state.blockedAt, by rw [found, ← open_]⟩, rfl⟩

end Holds

/-- The account of a new leader that has restored the groups. -/
theorem Tallied.restored {arrival : Int → Int} {holds : List (RestoreEntry Row)}
    (tallied : Tallied env outcomes executor)
    (shuffled : holds.Perm (openHolds arrival executor.landscape.nodeStates))
    (restores : Restores next.pending holds) (landscape : next.landscape = executor.landscape)
    (fits : next.completedKeys.Fits (some env.maxCompletedKeys)) : Tallied env outcomes next := by
  refine tallied.of_resembles ⟨by rw [landscape], by rw [landscape], fits,
    fun key branch token stateId => ?_⟩
  rw [tallied.held, ← tallied.toTracks.exists_hold_iff arrival, and_assoc]
  unfold Waits entry
  simp only [restores.entries, shuffled.mem_iff, exists_and_right]

/-- Each group that is restored is closed, or none of its tokens was released. -/
theorem Executor.classify_ok {keys : List Key}
    (fits : executor.completedKeys.Fits (some env.maxCompletedKeys)) (distinct : keys.Nodup) :
    ∃ closed lost known, classify env keys executor = .ok ((closed, lost), known) ∧
      known.landscape = executor.landscape ∧
      known.completedKeys.Fits (some env.maxCompletedKeys) ∧
      (closed.map Prod.fst).Sublist keys ∧ lost.Sublist keys ∧
      (∀ key ∈ lost, key ∉ closed.map Prod.fst) ∧
      ∀ key ∈ keys, key ∉ closed.map Prod.fst → executor.Unreleased key := by
  induction keys generalizing executor with
  | nil => exact ⟨[], [], executor, rfl, rfl, fits, .slnil, .slnil, nofun, nofun⟩
  | cons key keys ih =>
    obtain ⟨own, rest⟩ := nodup_cons.mp distinct
    rcases checkCompletion_cases fits key with
      ⟨unknown, unreleased⟩ | ⟨known, reason, looked, -, landscape, fits', found⟩
    · obtain ⟨closed, lost, last, ran, same, kept, among, amongLost, apart, open_⟩ := ih fits rest
      refine ⟨closed, if executor.knowsLoss key then key :: lost else lost, last, ?_, same, kept,
        among.cons key, ?_, ?_, ?_⟩
      · rw [classify, unknown]
        simp only [ran]
        rfl
      · split
        · exact amongLost.cons_cons key
        · exact amongLost.cons key
      · intro other listed
        split at listed
        · rcases mem_cons.mp listed with rfl | later
          · exact fun mine => own (among.subset mine)
          · exact apart other later
        · exact apart other listed
      · intro other listed
        rcases mem_cons.mp listed with rfl | later
        · exact fun _ => unreleased
        · exact open_ other later
    · obtain ⟨closed, lost, last, ran, same, kept, among, amongLost, apart, open_⟩ := ih fits' rest
      refine ⟨(key, reason) :: closed, lost, last, ?_, same.trans landscape, kept,
        among.cons_cons key, amongLost.cons key, ?_, ?_⟩
      · rw [classify, looked]
        simp only [found, ran]
        rfl
      · intro other listed mine
        rcases mem_cons.mp mine with rfl | later
        · exact own (amongLost.subset listed)
        · exact apart other listed later
      · intro other listed unlisted
        have later : other ∈ keys :=
          (mem_cons.mp listed).resolve_left fun same => unlisted (same ▸ mem_cons_self)
        have before := open_ other later fun mine => unlisted (mem_cons_of_mem _ mine)
        rwa [Unreleased, landscape] at before

/-- The residues of closed groups fail. -/
theorem Tallied.failClosed (tallied : Tallied env outcomes executor) {closed : List (Key × Reason)}
    (distinct : (closed.map Prod.fst).Nodup)
    (waiting : ∀ key ∈ closed.map Prod.fst, key ∈ executor.pending.keys) :
    ∃ results last, failClosed env closed executor = .ok (results, last) ∧
      Tallied env (outcomes ++ results) last ∧ Fails (closed.map Prod.fst) executor last := by
  refine tallied.closeEach (fun {item} _ _ _ tallied found => ?_) distinct waiting
  obtain ⟨next, ran, closes, after⟩ := tallied.failPending found item.2.late
  have fails := closes.fails
  simp only [ran]
  exact ⟨_, _, rfl, ⟨fails.left, fails.arrivals, fails.opened, fails.unreleased⟩,
    after.of_resembles ⟨rfl, rfl, markCompleted_fits _ _ _, fun _ _ _ _ => .rfl⟩⟩

/-- The groups that are complete are released. -/
theorem Sound.releaseComplete {keys : List Key} (sound : Sound env outcomes executor)
    (distinct : keys.Nodup)
    (held : ∀ key ∈ keys, ∃ branch entry, executor.entry key branch = some entry) :
    ∃ results last, releaseComplete env keys executor = .ok (results, last) ∧
      Sound env (outcomes ++ results) last ∧ last.arrivals = executor.arrivals := by
  induction keys generalizing outcomes executor with
  | nil => exact ⟨[], executor, rfl, by rwa [append_nil], rfl⟩
  | cons key keys ih =>
    obtain ⟨own, rest⟩ := nodup_cons.mp distinct
    obtain ⟨branch, entry, here⟩ := held key mem_cons_self
    obtain ⟨open_, -⟩ := (sound.held key branch entry.token entry.stateId).mp ⟨_, here⟩
    obtain ⟨settings, -, registered, -⟩ := sound.expected _ _ _ open_
    obtain ⟨pending, found, -⟩ := lookup_eq_some.mp here
    rw [releaseComplete, registered, found]
    simp only
    split
    next complete =>
      obtain ⟨released, next, ran, closed, tallied⟩ := sound.toTallied.executeRelease registered
        found complete (sound.unreleased _ _ _ open_)
      have others : ∀ other ∈ keys, ∃ branch entry, next.entry other branch = some entry := by
        intro other listed
        obtain ⟨branch, entry, there⟩ := held other (mem_cons_of_mem _ listed)
        have apart : other ≠ key := fun same => own (same ▸ listed)
        refine ⟨branch, entry, ?_⟩
        rw [Executor.entry, closed.pending, lookup_erase, if_neg apart]
        exact there
      have sound := closed.sound (by simp) sound tallied
      obtain ⟨results, last, ran', kept, same⟩ := ih sound rest others
      refine ⟨⟨key, .released released⟩ :: results, last, ?_, by rwa [append_assoc] at kept,
        same.trans closed.arrivals⟩
      rw [ran]
      simp only [bind, Except.bind, ran']
      rfl
    · exact ih sound rest fun other listed => held other (mem_cons_of_mem _ listed)

/-- A new leader restores what was held, fails what cannot be released any more, and releases
what is complete. -/
theorem Tallied.restoreFromJournal {arrival : Int → Int} {holds : List (RestoreEntry Row)}
    (tallied : Tallied env outcomes executor)
    (shuffled : holds.Perm (openHolds arrival executor.landscape.nodeStates)) :
    ∃ results next,
      restoreFromJournal env (.fresh executor.landscape) holds = .ok (results, next) ∧
        Sound env (outcomes ++ results) next ∧ next.arrivals = executor.arrivals := by
  obtain ⟨restored, ran, restores⟩ := tallied.toTracks.restores shuffled
  have fits : (fresh executor.landscape).completedKeys.Fits (some env.maxCompletedKeys) :=
    fun _ _ => Nat.zero_le _
  obtain ⟨closed, lost, known, sorted, landscape, fits, among, amongLost, apart, open_⟩ :=
    classify_ok fits restored.nodup_keys
  have opened : Tallied env outcomes { known with pending := restored } :=
    tallied.restored shuffled restores landscape fits
  obtain ⟨late, first, failedLate, kept, closes⟩ :=
    opened.failClosed (among.nodup restored.nodup_keys) fun key listed => among.subset listed
  have sound : Sound env (outcomes ++ late) first := by
    refine closes.sound kept fun key token stateId unlisted held => ?_
    obtain ⟨_, branch, _, _, named, _⟩ := opened.expected _ _ _ held
    obtain ⟨_, here⟩ := (opened.held _ branch _ _).mpr ⟨held, named⟩
    obtain ⟨pending, waits, -⟩ := lookup_eq_some.mp here
    have unreleased := open_ key (mem_keys_of_get waits) unlisted
    rwa [Unreleased, ← landscape] at unreleased
  obtain ⟨failed, second, failedLost, sound', fails⟩ :=
    sound.failAll .branchLost (amongLost.nodup restored.nodup_keys) fun key listed => by
      obtain ⟨pending, found⟩ := mem_keys.mp (amongLost.subset listed)
      exact mem_keys_of_get (by rw [closes.left, if_neg (apart key listed), found])
  have held : ∀ key ∈ second.pending.keys, ∃ branch entry,
      second.entry key branch = some entry := by
    intro key listed
    obtain ⟨pending, waits⟩ := mem_keys.mp listed
    have before := waits
    rw [fails.left, closes.left] at before
    have there : restored.get key = some pending := by
      split at before
      · cases before
      · split at before
        · cases before
        · exact before
    obtain ⟨branch, entry, found⟩ := restores.filled key (mem_keys_of_get there)
    rw [lookup, there] at found
    exact ⟨branch, entry, lookup_eq_some.mpr ⟨pending, waits, found⟩⟩
  obtain ⟨released, last, releases, kept, same⟩ :=
    sound'.releaseComplete second.pending.nodup_keys held
  have begun : last.arrivals = executor.arrivals := by
    rw [same, fails.arrivals, closes.arrivals]
    exact arrivals_congr landscape
  refine ⟨late ++ failed ++ released, last, ?_, by simpa [append_assoc] using kept, begun⟩
  unfold Executor.restoreFromJournal
  rw [if_neg (show ¬(fresh executor.landscape).pending.keys ≠ [] from not_not.mpr rfl), ran]
  simp only [sorted, failedLate, failedLost, releases, bind, Except.bind, pure, Except.pure]

end Calls

/-! ## Runs -/

/-- What a crash leaves: it strikes between two calls, or inside an arrival that had begun
its state.  A fork gives a branch to one token. -/
inductive Crashes (env : Environment) (executor : Executor Row)
    (arrivals : List (Key × Token Row)) :
    List (Key × Token Row) → Landscape Row → Prop where
  | between : Crashes env executor arrivals [] executor.landscape
  | arriving {name groupId branch : String} {settings : RowUnionSettings} {token : Token Row}
      (now : Int) (registered : env.settings name = some settings)
      (expected : branch ∈ settings.branches) (named : token.branchName = some branch)
      (grouped : token.forkGroupId = some groupId) (new : New arrivals name token)
      (alone : ∀ state ∈ executor.landscape.nodeStates, state.status = .pending →
        state.key = (name, groupId) → state.token.branchName ≠ some branch) :
      Crashes env executor arrivals [((name, groupId), token)]
        (executor.beginNodeState (name, groupId) token now).landscape

/-- The arrivals, the outcomes and the executor that calls, losses and crashes lead to.  An
arrival counts when its call returns, or when a crash strikes it. -/
inductive Reaches (env : Environment) :
    List (Key × Token Row) → List (RowUnionOutcome Row) → Executor Row → Prop where
  | initial : Reaches env [] [] .initial
  | accepted {arrivals outcomes executor token name now outcome next}
      (reached : Reaches env arrivals outcomes executor) (new : New arrivals name token)
      (ran : executor.accept env token name now = .ok (outcome, next)) :
      Reaches env (arrivals ++ (arrivalAt name token).toList) (outcomes ++ [outcome]) next
  | refused {arrivals outcomes executor token name now raised}
      (reached : Reaches env arrivals outcomes executor) (new : New arrivals name token)
      (ran : executor.accept env token name now = .error raised) :
      Reaches env arrivals outcomes raised.executor
  | lost {arrivals outcomes executor} (reached : Reaches env arrivals outcomes executor) (key : Key)
      (branch : String) : Reaches env arrivals outcomes
        { executor with landscape.losses := executor.landscape.losses ++ [(key, branch)] }
  | notified {arrivals outcomes executor name groupId lostBranch result next}
      (reached : Reaches env arrivals outcomes executor)
      (ran : executor.notifyBranchLost env name groupId lostBranch = .ok (result, next)) :
      Reaches env arrivals (outcomes ++ result.toList) next
  | timedOut {arrivals outcomes executor name now results next}
      (reached : Reaches env arrivals outcomes executor)
      (ran : executor.checkTimeouts env name now = .ok (results, next)) :
      Reaches env arrivals (outcomes ++ results) next
  | flushed {arrivals outcomes executor results next}
      (reached : Reaches env arrivals outcomes executor)
      (ran : executor.flushPending env = .ok (results, next)) :
      Reaches env arrivals (outcomes ++ results) next
  | restored {arrivals begun outcomes executor landscape clock entries results next}
      (reached : Reaches env arrivals outcomes executor)
      (crashes : Crashes env executor arrivals begun landscape)
      (shuffled : entries.Perm (openHolds clock landscape.nodeStates))
      (ran : (fresh landscape).restoreFromJournal env entries = .ok (results, next)) :
      Reaches env (arrivals ++ begun) (outcomes ++ results) next

variable {env : Environment} {outcomes : List (RowUnionOutcome Row)} {executor : Executor Row}
  {arrivals begun : List (Key × Token Row)}

/-- A crash inside an arrival is one after a hold, for who sees only what is durable. -/
theorem Sound.crashes (sound : Sound env outcomes executor) {landscape : Landscape Row}
    (crashes : Crashes env executor executor.arrivals begun landscape) :
    ∃ crashed : Executor Row, crashed.landscape = landscape ∧ Tallied env outcomes crashed ∧
      crashed.arrivals = executor.arrivals ++ begun := by
  cases crashes with
  | between => exact ⟨executor, rfl, sound.toTallied, (append_nil _).symm⟩
  | @arriving name groupId branch settings token now registered expected named grouped new alone =>
    have expected : Expected env (name, groupId) token :=
      ⟨settings, branch, registered, expected, named, grouped⟩
    have vacant : executor.entry (name, groupId) branch = none := by
      refine Option.eq_none_iff_forall_ne_some.mpr fun entry held => ?_
      obtain ⟨⟨blockedAt, found⟩, named'⟩ := (sound.held _ _ _ _).mp ⟨_, held⟩
      exact alone _ (mem_of_getElem? found) rfl rfl named'
    exact ⟨executor.hold (name, groupId) branch token now now, rfl,
      sound.toTallied.hold expected named vacant (new.fresh grouped), map_append⟩

/-- Every run keeps the account, and has one node state for each arrival. -/
theorem Reaches.sound (reached : Reaches env arrivals outcomes executor) :
    Sound env outcomes executor ∧ executor.arrivals = arrivals := by
  induction reached with
  | initial => exact ⟨.initial, rfl⟩
  | @accepted arrivals outcomes executor token name now outcome next reached new ran ih =>
    obtain ⟨sound, rfl⟩ := ih
    have kept := sound.accept new now
    rwa [ran] at kept
  | @refused arrivals outcomes executor token name now raised reached new ran ih =>
    obtain ⟨sound, rfl⟩ := ih
    have kept := sound.accept new now
    rwa [ran] at kept
  | lost reached key branch ih =>
    exact ⟨ih.1.of_resembles ⟨rfl, rfl, ih.1.fits, fun _ _ _ _ => .rfl⟩, ih.2⟩
  | @notified arrivals outcomes executor name groupId lostBranch result next reached ran ih =>
    have kept := ih.1.notifyBranchLost name groupId lostBranch
    rw [ran] at kept
    exact ⟨kept.1, by rw [kept.2, append_nil, ih.2]⟩
  | @timedOut arrivals outcomes executor name now results next reached ran ih =>
    have kept := ih.1.checkTimeouts name now
    rw [ran] at kept
    exact ⟨kept.1, by rw [kept.2, append_nil, ih.2]⟩
  | flushed reached ran ih =>
    obtain ⟨_, _, ran', kept, same, -⟩ := ih.1.flushPending
    rw [ran] at ran'
    cases ran'
    exact ⟨kept, same.trans ih.2⟩
  | restored reached crashes shuffled ran ih =>
    obtain ⟨sound, rfl⟩ := ih
    obtain ⟨crashed, rfl, tallied, came⟩ := sound.crashes crashes
    obtain ⟨_, _, ran', kept, same⟩ := tallied.restoreFromJournal shuffled
    rw [ran] at ran'
    cases ran'
    exact ⟨kept, same.trans came⟩

/-- How often a token that came to a group was released, and how often it failed. -/
def dispositions (outcomes : List (RowUnionOutcome Row)) (came : Key × Token Row) : Nat × Nat :=
  ((decidedIds .completed outcomes).count (came.1, came.2.tokenId),
    (decidedIds .failed outcomes).count (came.1, came.2.tokenId))

/-- The token is held at its group. -/
def Executor.Holds (executor : Executor Row) (came : Key × Token Row) : Prop :=
  ∃ branch entry, executor.entry came.1 branch = some entry ∧ entry.token = came.2

/-- A token that came is held, or was released once, or failed once. -/
theorem Sound.disposed (sound : Sound env outcomes executor) :
    ∀ came ∈ executor.arrivals, executor.Holds came ∧ dispositions outcomes came = (0, 0) ∨
      ¬executor.Holds came ∧
        (dispositions outcomes came = (1, 0) ∨ dispositions outcomes came = (0, 1)) := by
  intro came listed
  obtain ⟨state, here, rfl⟩ := mem_map.mp listed
  have alone : ∀ other ∈ executor.landscape.nodeStates, other.ident = state.ident → other = state :=
    fun other there same => inj_on_of_nodup_map sound.distinct there here same
  have held : executor.Holds (state.key, state.token) ↔ state.status = .pending := by
    constructor
    · rintro ⟨branch, entry, waits, token⟩
      obtain ⟨⟨_, found⟩, -⟩ := (sound.held _ _ _ _).mp ⟨_, waits⟩
      rw [← alone _ (mem_of_getElem? found) (by rw [token]; rfl)]
    · intro open_
      obtain ⟨position, found⟩ := mem_iff_getElem?.mp here
      have opened : executor.IsOpen state.key state.token position :=
        ⟨state.blockedAt, by rw [found, ← open_]⟩
      obtain ⟨_, branch, _, _, named, _⟩ := sound.expected _ _ _ opened
      obtain ⟨_, waits⟩ := (sound.held _ branch _ _).mpr ⟨opened, named⟩
      exact ⟨branch, _, waits, rfl⟩
  have count : ∀ status, status ≠ .pending → (decidedIds status outcomes).count state.ident =
      if state.status = status then 1 else 0 := by
    intro status done
    have once : (decidedIds status outcomes).Nodup := (sound.decided status done).nodup_iff.mpr
      (sound.distinct.sublist (filter_sublist.map _))
    rw [once.count]
    refine if_congr ((sound.mem_decidedIds status done).trans ⟨?_, ?_⟩) rfl rfl
    · rintro ⟨other, there, decided, same⟩
      rwa [← alone other there same]
    · exact fun decided => ⟨state, here, decided, rfl⟩
  have counts : dispositions outcomes (state.key, state.token) =
      (if state.status = .completed then 1 else 0, if state.status = .failed then 1 else 0) :=
    Prod.ext (count .completed nofun) (count .failed nofun)
  rw [held, counts]
  cases state.status <;> simp

/-- A token that was released left in the release of its group. -/
theorem exists_release_of_mem {key : Key} {tokenId : String}
    (listed : (key, tokenId) ∈ decidedIds .completed outcomes) :
    ∃ outcome ∈ outcomes, outcome.IsRelease ∧ outcome.key = key := by
  obtain ⟨outcome, here, mine⟩ := mem_flatMap.mp listed
  obtain ⟨token, released, same⟩ := mem_map.mp mine
  cases same
  refine ⟨outcome, here, ?_, rfl⟩
  unfold RowUnionOutcome.decided at released
  cases verdict : outcome.verdict with
  | released tokens => exact ⟨tokens, verdict⟩
  | _ => simp [verdict] at released

/-- A union of two branches, with a memory of one closed group. -/
private def pairEnv : Environment where
  settings := fun name => if name = "union" then some
    { name := "union", branches := ["a", "b"], timeoutSeconds := none, nodup_branches := by decide,
      two_le_branches := by decide } else none
  maxCompletedKeys := 1

private def pairToken (branch : String) : Token Unit := ⟨branch, [⟨.fork, "g", branch⟩], ()⟩

private def holdsA : Executor Unit where
  pending := ⟨[(("union", "g"), ⟨⟨[("a", ⟨pairToken "a", 0, 0⟩)], by decide⟩, 0⟩)], by decide⟩
  completedKeys := .empty
  failedWithoutMemberState := []
  recordedLosses := .empty
  recordedLossGroups := .empty
  landscape := ⟨[⟨("union", "g"), pairToken "a", 0, .pending⟩], [], []⟩

end Elspeth.RowUnion
