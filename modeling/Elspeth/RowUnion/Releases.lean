import Elspeth.RowUnion.Executor

/-!
# The account of a row union

Every token that comes to a row union has one node state there: open while it is held,
completed when its group was released, failed otherwise.  The memory of the executor only
decides which of these it becomes; what has been decided is durable.
-/

namespace Elspeth.RowUnion

open Collections Lineage BranchEntry List RowUnionOutcome Dict

variable {Row : Type}

/-! ## Outcomes -/

/-- The tokens to which an outcome gives a status. -/
def RowUnionOutcome.decided (outcome : RowUnionOutcome Row) (status : StateStatus) :
    List (Token Row) :=
  match outcome.verdict, status with
  | .released tokens, .completed => tokens
  | .failed _ tokens, .failed => tokens
  | .late _ token _, .failed => [token]
  | _, _ => []

def RowUnionOutcome.IsRelease (outcome : RowUnionOutcome Row) : Prop :=
  ∃ tokens, outcome.verdict = .released tokens

/-- The tokens that were given a status, each with the group it came to. -/
def decidedIds (status : StateStatus) (outcomes : List (RowUnionOutcome Row)) :
    List (Key × String) :=
  outcomes.flatMap fun outcome =>
    (outcome.decided status).map fun token => (outcome.key, token.tokenId)

theorem decidedIds_append (status : StateStatus) (first second : List (RowUnionOutcome Row)) :
    decidedIds status (first ++ second) = decidedIds status first ++ decidedIds status second :=
  flatMap_append

/-- The token continues without the FORK frame of its group, and is otherwise the same. -/
def Popped (groupId : String) (original released : Token Row) : Prop :=
  ∃ below frame above, original.lineagePath = below ++ frame :: above ∧
    frame.kind = .fork ∧ frame.groupId = groupId ∧ some frame.memberKey = original.branchName ∧
    released = { original with lineagePath := below ++ above }

/-- A release of one token for each declared branch, in declared order. -/
def Whole (env : Environment) (arrivals : List (Key × Token Row)) (key : Key)
    (released : List (Token Row)) : Prop :=
  ∃ settings, env.settings key.1 = some settings ∧ ∃ originals : List (Token Row),
    originals.map Coalesce.Token.branchName = settings.branches.map some ∧
    (∀ original ∈ originals, (key, original) ∈ arrivals) ∧ Forall₂ (Popped key.2) originals released

theorem Whole.ne_nil {env : Environment} {arrivals : List (Key × Token Row)} {key : Key}
    {released : List (Token Row)} (whole : Whole env arrivals key released) : released ≠ [] := by
  obtain ⟨settings, -, originals, named, -, popped⟩ := whole
  rintro rfl
  rw [forall₂_nil_right_iff.mp popped] at named
  have none : settings.branches = [] := map_eq_nil_iff.mp named.symm
  have two := settings.two_le_branches
  rw [none] at two
  cases two

/-! ## Node states -/

/-- The group and the token of a state. -/
def NodeState.ident (state : NodeState Row) : Key × String := (state.key, state.token.tokenId)

section States

variable (key : Key) (status : StateStatus) (states : List (NodeState Row))

/-- The tokens whose states have a status, each with its group. -/
def settledIds : List (Key × String) :=
  (states.filter fun state => state.status = status).map NodeState.ident

/-- The tokens that wait at a group. -/
def openIds : List (Key × String) :=
  (states.filter fun state => state.key = key ∧ state.status = .pending).map NodeState.ident

/-- The open states of a group are completed. -/
def closeGroup : List (NodeState Row) :=
  states.map fun state =>
    if state.key = key ∧ state.status = .pending then { state with status } else state

variable {key status states}

theorem map_closeGroup {α : Type} {f : NodeState Row → α}
    (blind : ∀ (state : NodeState Row) status, f { state with status } = f state) :
    (closeGroup key status states).map f = states.map f := by
  unfold closeGroup
  rw [map_map]
  refine map_congr_left fun state _ => ?_
  simp only [Function.comp_apply]
  split
  · exact blind state status
  · rfl

/-- A state was completed now, or is as it was. -/
theorem mem_closeGroup {state : NodeState Row} (mem : state ∈ closeGroup key status states) :
    state.key = key ∧ state.status = status ∨
      state ∈ states ∧ (state.status = .pending → state.key ≠ key) := by
  obtain ⟨before, here, rfl⟩ := mem_map.mp mem
  split
  next open_ => exact .inl ⟨open_.1, rfl⟩
  next kept => exact .inr ⟨here, fun open_ same => kept ⟨same, open_⟩⟩

theorem getElem?_closeGroup (done : status ≠ .pending) {position : Nat} {other : Key}
    {token : Token Row} {blockedAt : Int} :
    (closeGroup key status states)[position]? = some ⟨other, token, blockedAt, .pending⟩ ↔
      other ≠ key ∧ states[position]? = some ⟨other, token, blockedAt, .pending⟩ := by
  rw [closeGroup, getElem?_map]
  cases states[position]? with
  | none => simp
  | some state =>
    simp only [Option.map_some, Option.some.injEq]
    split
    next open_ =>
      refine iff_of_false (fun same => done (congrArg NodeState.status same)) ?_
      rintro ⟨apart, rfl⟩
      exact apart open_.1
    next kept =>
      refine ⟨?_, And.right⟩
      rintro rfl
      exact ⟨fun same => kept ⟨same, rfl⟩, rfl⟩

/-- The tokens that waited have the new status, and the others keep theirs. -/
theorem settledIds_closeGroup {other : StateStatus} (decided : other ≠ .pending) :
    (settledIds other (closeGroup key status states)).Perm
      (settledIds other states ++ if status = other then openIds key states else []) := by
  induction states with
  | nil => simp [settledIds, closeGroup, openIds]
  | cons state states ih =>
    unfold settledIds closeGroup openIds at ih ⊢
    by_cases open_ : state.key = key ∧ state.status = .pending
    · have apart : .pending ≠ other := decided.symm
      by_cases same : status = other
      · subst same
        simpa [open_, apart, NodeState.ident] using (ih.cons state.ident).trans perm_middle.symm
      · simpa [open_, same, apart] using ih
    · by_cases here : state.status = other
      · simpa [here, decided] using ih.cons state.ident
      · simpa [open_, here] using ih

/-- The states at some positions are completed. -/
def settle (status : StateStatus) (stateIds : List Nat) (states : List (NodeState Row)) :
    List (NodeState Row) :=
  stateIds.foldl (fun states stateId =>
    states.modify stateId fun state => { state with status }) states

theorem getElem?_settle (status : StateStatus) (stateIds : List Nat) (states : List (NodeState Row))
    (position : Nat) : (settle status stateIds states)[position]? =
      states[position]?.map fun state =>
        if position ∈ stateIds then { state with status } else state := by
  unfold settle
  induction stateIds generalizing states with
  | nil => simp
  | cons stateId stateIds ih =>
    rw [foldl_cons, ih, getElem?_modify]
    cases states[position]? with
    | none => rfl
    | some =>
      by_cases here : stateId = position
      · by_cases later : position ∈ stateIds <;> simp [here, later]
      · have apart : position ≠ stateId := Ne.symm here
        by_cases later : position ∈ stateIds <;> simp [here, apart, later]

/-- Completing the states at the positions that are open closes the group. -/
theorem settle_eq_closeGroup {stateIds : List Nat}
    (positions : ∀ (position : Nat) (state : NodeState Row), states[position]? = some state →
      (position ∈ stateIds ↔ state.key = key ∧ state.status = .pending)) :
    settle status stateIds states = closeGroup key status states := by
  refine ext_getElem? fun position => ?_
  rw [getElem?_settle, closeGroup, getElem?_map]
  cases found : states[position]? with
  | none => rfl
  | some state => simp only [Option.map_some, positions position state found]

theorem getElem?_concat_eq_some {added state : NodeState Row} {position : Nat} :
    (states ++ [added])[position]? = some state ↔
      states[position]? = some state ∨ position = states.length ∧ state = added := by
  rcases Nat.lt_trichotomy position states.length with before | rfl | after
  · rw [getElem?_append_left before]
    simp [Nat.ne_of_lt before]
  · simp [eq_comm]
  · rw [getElem?_append_right (Nat.le_of_lt after), getElem?_singleton,
      if_neg (Nat.sub_ne_zero_of_lt after), getElem?_eq_none_iff.mpr (Nat.le_of_lt after)]
    simp [Nat.ne_of_gt after]

end States

/-! ## Holds -/

/-- The entry of a branch among pending groups. -/
def lookup (groups : Dict Key (PendingRowUnion Row)) (key : Key) (branch : String) :
    Option (BranchEntry Row) :=
  (groups.get key).bind fun pending => pending.branches.get branch

section Lookup

variable {groups : Dict Key (PendingRowUnion Row)} {key : Key} {branch : String}

theorem lookup_eq_some {entry : BranchEntry Row} :
    lookup groups key branch = some entry ↔
      ∃ pending, groups.get key = some pending ∧ pending.branches.get branch = some entry :=
  Option.bind_eq_some_iff

/-- The branches that wait at a group, if any. -/
theorem get_branches_getD (anchor : Int) :
    ((groups.get key).getD ⟨.empty, anchor⟩).branches.get branch = lookup groups key branch := by
  unfold lookup
  cases groups.get key <;> rfl

theorem lookup_erase {other : Key} : lookup (groups.erase key) other branch =
    if other = key then none else lookup groups other branch := by
  unfold lookup
  rw [get_erase]
  split <;> rfl

theorem lookup_set {other : Key} {pending : PendingRowUnion Row} :
    lookup (groups.set key pending) other branch =
      if other = key then pending.branches.get branch else lookup groups other branch := by
  unfold lookup
  rw [get_set]
  split <;> rfl

/-- A branch is added to its group. -/
theorem lookup_set_branch {other : Key} {name : String} {entry : BranchEntry Row}
    {anchor waits : Int} :
    lookup (groups.set key ⟨((groups.get key).getD ⟨.empty, anchor⟩).branches.set branch entry,
        waits⟩) other name =
      if other = key ∧ name = branch then some entry else lookup groups other name := by
  rw [lookup_set, get_set, get_branches_getD]
  by_cases here : other = key
  · subst here
    simp
  · simp [here]

end Lookup

namespace Executor

theorem foldl_completeNodeState (entries : List (BranchEntry Row)) (executor : Executor Row)
    (status : StateStatus) :
    entries.foldl (fun executor entry => executor.completeNodeState status entry.stateId) executor =
      { executor with
        landscape.nodeStates :=
          settle status (entries.map stateId) executor.landscape.nodeStates } := by
  induction entries generalizing executor with
  | nil => rfl
  | cons entry entries ih =>
    rw [foldl_cons, ih]
    rfl

theorem foldl_fail (entries : List (BranchEntry Row)) (executor : Executor Row) :
    entries.foldl (fun executor entry =>
        (executor.completeNodeState .failed entry.stateId).recordTokenOutcome entry.token)
          executor =
      { executor with
        landscape := {
          nodeStates := settle .failed (entries.map stateId) executor.landscape.nodeStates
          outcomes := executor.landscape.outcomes ++
            (entries.map token).map Coalesce.Token.tokenId
          losses := executor.landscape.losses } } := by
  induction entries generalizing executor with
  | nil => simp [settle]
  | cons entry entries ih =>
    rw [foldl_cons, ih]
    simp [completeNodeState, recordTokenOutcome, settle]

variable (executor : Executor Row)

/-- The groups and tokens of the node states, in the order in which they began. -/
def arrivals : List (Key × Token Row) :=
  executor.landscape.nodeStates.map fun state => (state.key, state.token)

/-- The entry of a branch that is held. -/
def entry (key : Key) (branch : String) : Option (BranchEntry Row) :=
  lookup executor.pending key branch

/-- A token is held for a branch, and blocked in a state. -/
def Waits (key : Key) (branch : String) (token : Token Row) (stateId : Nat) : Prop :=
  ∃ arrivalTime, executor.entry key branch = some ⟨token, arrivalTime, stateId⟩

/-- The state of a token at a group is open. -/
def IsOpen (key : Key) (token : Token Row) (stateId : Nat) : Prop :=
  ∃ blockedAt, executor.landscape.nodeStates[stateId]? = some ⟨key, token, blockedAt, .pending⟩

/-- No token of the group was released. -/
def Unreleased (key : Key) : Prop :=
  ∀ state ∈ executor.landscape.nodeStates, state.key = key → state.status ≠ .completed

end Executor

/-! ## The invariant -/

/-- The token belongs to a declared branch of its group. -/
def Expected (env : Environment) (key : Key) (token : Token Row) : Prop :=
  ∃ settings branch, env.settings key.1 = some settings ∧ branch ∈ settings.branches ∧
    token.branchName = some branch ∧ token.forkGroupId = some key.2

/-- The tokens that are held are those of the open states, and a token has one state at a group. -/
structure Tracks (env : Environment) (executor : Executor Row) : Prop where
  held : ∀ key branch token stateId, executor.Waits key branch token stateId ↔
    executor.IsOpen key token stateId ∧ token.branchName = some branch
  expected : ∀ key token stateId, executor.IsOpen key token stateId → Expected env key token
  distinct : (executor.landscape.nodeStates.map NodeState.ident).Nodup

/-- The outcomes say what the states say. -/
structure Accounts (outcomes : List (RowUnionOutcome Row)) (executor : Executor Row) : Prop where
  decided : ∀ status, status ≠ .pending →
    (decidedIds status outcomes).Perm (settledIds status executor.landscape.nodeStates)
  recorded : executor.landscape.outcomes = (decidedIds .failed outcomes).map Prod.snd

/-- Every release is whole, and a group has at most one. -/
structure Releases (env : Environment) (outcomes : List (RowUnionOutcome Row))
    (executor : Executor Row) : Prop where
  whole : ∀ outcome ∈ outcomes, ∀ tokens, outcome.verdict = .released tokens →
    Whole env executor.arrivals outcome.key tokens
  once : outcomes.Pairwise fun first second =>
    first.IsRelease → second.IsRelease → first.key ≠ second.key

structure Tallied (env : Environment) (outcomes : List (RowUnionOutcome Row))
    (executor : Executor Row) : Prop extends Tracks env executor, Accounts outcomes executor,
    Releases env outcomes executor where
  fits : executor.completedKeys.Fits (some env.maxCompletedKeys)

/-- The invariant between calls: no token of a released group is held. -/
structure Sound (env : Environment) (outcomes : List (RowUnionOutcome Row))
    (executor : Executor Row) : Prop extends Tallied env outcomes executor where
  unreleased : ∀ key token stateId, executor.IsOpen key token stateId → executor.Unreleased key

theorem Sound.initial {env : Environment} : Sound env [] (Executor.initial : Executor Row) where
  held _ _ _ _ := iff_of_false nofun nofun
  expected := nofun
  distinct := nodup_nil
  decided _ _ := .nil
  recorded := rfl
  whole := nofun
  once := .nil
  fits _ _ := Nat.zero_le _
  unreleased := nofun

section Transitions

variable {env : Environment} {outcomes : List (RowUnionOutcome Row)} {executor next : Executor Row}
  {key : Key} {outcome : RowUnionOutcome Row} {token : Token Row} {stateId : Nat}

/-- Only memory changes, and when the tokens that are held arrived. -/
structure Resembles (env : Environment) (executor next : Executor Row) : Prop where
  states : next.landscape.nodeStates = executor.landscape.nodeStates
  recorded : next.landscape.outcomes = executor.landscape.outcomes
  fits : next.completedKeys.Fits (some env.maxCompletedKeys)
  waits : ∀ key branch token stateId,
    next.Waits key branch token stateId ↔ executor.Waits key branch token stateId

theorem Tallied.of_resembles (tallied : Tallied env outcomes executor)
    (same : Resembles env executor next) : Tallied env outcomes next where
  held key branch token stateId := by
    rw [same.waits, Executor.IsOpen, same.states]
    exact tallied.held key branch token stateId
  expected := by simpa only [Executor.IsOpen, same.states] using tallied.expected
  distinct := same.states ▸ tallied.distinct
  decided := same.states ▸ tallied.decided
  recorded := same.recorded.trans tallied.recorded
  whole := by simpa only [Executor.arrivals, same.states] using tallied.whole
  once := tallied.once
  fits := same.fits

theorem Sound.of_resembles (sound : Sound env outcomes executor)
    (same : Resembles env executor next) : Sound env outcomes next where
  toTallied := sound.toTallied.of_resembles same
  unreleased := by
    simpa only [Executor.IsOpen, Executor.Unreleased, same.states] using sound.unreleased

/-- The states now given a status are those of the new outcomes. -/
theorem Accounts.append (accounts : Accounts outcomes executor) {more : List (RowUnionOutcome Row)}
    (settled : ∀ status, status ≠ .pending →
      (settledIds status next.landscape.nodeStates).Perm
        (settledIds status executor.landscape.nodeStates ++ decidedIds status more))
    (recorded : next.landscape.outcomes =
      executor.landscape.outcomes ++ (decidedIds .failed more).map Prod.snd) :
    Accounts (outcomes ++ more) next where
  decided status done := by
    rw [decidedIds_append]
    exact ((accounts.decided status done).append_right _).trans (settled status done).symm
  recorded := by rw [recorded, accounts.recorded, decidedIds_append, map_append]

/-- A token was released exactly if its state is completed. -/
theorem Accounts.mem_decidedIds (accounts : Accounts outcomes executor) (status : StateStatus)
    (done : status ≠ .pending) {id : Key × String} :
    id ∈ decidedIds status outcomes ↔
      ∃ state ∈ executor.landscape.nodeStates, state.status = status ∧ state.ident = id := by
  rw [(accounts.decided status done).mem_iff, settledIds, mem_map]
  simp [and_assoc]

/-- A group that was released has a completed state. -/
theorem Tallied.not_isRelease (tallied : Tallied env outcomes executor)
    (unreleased : executor.Unreleased key) (mem : outcome ∈ outcomes)
    (release : outcome.IsRelease) : outcome.key ≠ key := by
  rintro rfl
  obtain ⟨tokens, verdict⟩ := release
  obtain ⟨token, listed⟩ := exists_mem_of_ne_nil _ (tallied.whole outcome mem tokens verdict).ne_nil
  have decided : (outcome.key, token.tokenId) ∈ decidedIds .completed outcomes := by
    refine mem_flatMap.mpr ⟨outcome, mem, mem_map.mpr ⟨token, ?_, rfl⟩⟩
    simpa [RowUnionOutcome.decided, verdict] using listed
  obtain ⟨state, here, completed, same⟩ := (tallied.mem_decidedIds .completed nofun).mp decided
  exact unreleased state here (congrArg Prod.fst same) completed

theorem Releases.mono (releases : Releases env outcomes executor)
    (grows : ∀ came ∈ executor.arrivals, came ∈ next.arrivals) : Releases env outcomes next where
  whole outcome mem tokens verdict := by
    obtain ⟨settings, registered, originals, named, came, popped⟩ :=
      releases.whole outcome mem tokens verdict
    exact ⟨settings, registered, originals, named,
      fun original mine => grows _ (came original mine), popped⟩
  once := releases.once

theorem Releases.concat (releases : Releases env outcomes executor)
    (whole : ∀ tokens, outcome.verdict = .released tokens →
      Whole env executor.arrivals outcome.key tokens)
    (new : outcome.IsRelease → ∀ first ∈ outcomes, first.IsRelease → first.key ≠ outcome.key) :
    Releases env (outcomes ++ [outcome]) executor where
  whole other mem tokens verdict := by
    rcases mem_append.mp mem with old | mine
    · exact releases.whole other old tokens verdict
    · obtain rfl := mem_singleton.mp mine
      exact whole tokens verdict
  once := by
    refine pairwise_append.mpr ⟨releases.once, pairwise_singleton _ _, ?_⟩
    intro first listed second mine earlier release
    obtain rfl := mem_singleton.mp mine
    exact new release first listed earlier

theorem Releases.quiet (releases : Releases env outcomes executor) (quiet : ¬outcome.IsRelease) :
    Releases env (outcomes ++ [outcome]) executor :=
  releases.concat (fun tokens verdict => absurd ⟨tokens, verdict⟩ quiet)
    fun release => absurd release quiet

/-- An outcome that consumes nothing. -/
theorem Tallied.silent (tallied : Tallied env outcomes executor) (held : outcome.verdict = .held) :
    Tallied env (outcomes ++ [outcome]) executor := by
  have none : ∀ status, decidedIds status [outcome] = [] := by
    intro status
    simp [decidedIds, RowUnionOutcome.decided, held]
  have quiet : ¬outcome.IsRelease := by
    rintro ⟨tokens, release⟩
    rw [held] at release
    cases release
  refine ⟨tallied.toTracks, tallied.toAccounts.append (fun status _ => ?_) ?_,
    tallied.toReleases.quiet quiet, tallied.fits⟩
  · rw [none, append_nil]
  · rw [none, map_nil, append_nil]

section Concat

variable {added : NodeState Row}
  (states : next.landscape.nodeStates = executor.landscape.nodeStates ++ [added])
include states

theorem Executor.isOpen_concat :
    next.IsOpen key token stateId ↔ executor.IsOpen key token stateId ∨
      stateId = executor.nextStateId ∧ added.key = key ∧ added.token = token ∧
        added.status = .pending := by
  unfold IsOpen
  simp only [states, getElem?_concat_eq_some, exists_or, exists_and_left]
  refine or_congr_right (and_congr_right fun _ => ⟨?_, ?_⟩)
  · rintro ⟨blockedAt, rfl⟩
    exact ⟨rfl, rfl, rfl⟩
  · rintro ⟨rfl, rfl, open_⟩
    exact ⟨added.blockedAt, by rw [← open_]⟩

theorem Executor.arrivals_concat :
    next.arrivals = executor.arrivals ++ [(added.key, added.token)] := by
  rw [arrivals, states, map_append]
  rfl

theorem Releases.grow (releases : Releases env outcomes executor) : Releases env outcomes next :=
  releases.mono fun came listed => by
    rw [Executor.arrivals_concat states]
    exact mem_append_left _ listed

/-- A token that is new has a state of its own. -/
theorem Tracks.distinct_concat (tracks : Tracks env executor)
    (fresh : added.ident ∉ executor.landscape.nodeStates.map NodeState.ident) :
    (next.landscape.nodeStates.map NodeState.ident).Nodup := by
  rw [states, map_append]
  exact tracks.distinct.append (nodup_singleton _) (disjoint_singleton.mpr fresh)

theorem Executor.Unreleased.concat (unreleased : executor.Unreleased key)
    (held : added.status ≠ .completed) : next.Unreleased key := by
  intro state mem same
  rw [states] at mem
  rcases mem_append.mp mem with old | new
  · exact unreleased state old same
  · rwa [mem_singleton.mp new]

theorem settledIds_concat (status : StateStatus) : settledIds status next.landscape.nodeStates =
    settledIds status executor.landscape.nodeStates ++
      if added.status = status then [added.ident] else [] := by
  rw [states, settledIds, filter_append, map_append, filter_singleton]
  split <;> simp_all [settledIds]

end Concat

/-- A token is held for its branch. -/
def Executor.hold (executor : Executor Row) (key : Key) (branch : String) (token : Token Row)
    (now waits : Int) : Executor Row :=
  { executor.beginNodeState key token now with
    pending := executor.pending.set key
      ⟨((executor.pending.get key).getD ⟨.empty, now⟩).branches.set branch
        ⟨token, now, executor.nextStateId⟩, waits⟩ }

theorem Tallied.hold (tallied : Tallied env outcomes executor) {branch : String} {now waits : Int}
    (expected : Expected env key token) (named : token.branchName = some branch)
    (vacant : executor.entry key branch = none)
    (fresh : (key, token.tokenId) ∉ executor.landscape.nodeStates.map NodeState.ident) :
    Tallied env outcomes (executor.hold key branch token now waits) := by
  have states : (executor.hold key branch token now waits).landscape.nodeStates =
      executor.landscape.nodeStates ++ [⟨key, token, now, .pending⟩] := rfl
  have entries : ∀ other name, (executor.hold key branch token now waits).entry other name =
      if other = key ∧ name = branch then some ⟨token, now, executor.nextStateId⟩
      else executor.entry other name := fun _ _ => lookup_set_branch
  have accounts : Accounts (outcomes ++ []) (executor.hold key branch token now waits) := by
    refine tallied.toAccounts.append (fun status done => ?_) (append_nil _).symm
    rw [settledIds_concat states, if_neg done.symm]
    exact .refl _
  refine ⟨⟨?_, ?_, tallied.distinct_concat states fresh⟩, append_nil outcomes ▸ accounts,
    tallied.toReleases.grow states, tallied.fits⟩
  · intro other name found stateId
    rw [Executor.isOpen_concat states]
    by_cases slot : other = key ∧ name = branch
    · obtain ⟨rfl, rfl⟩ := slot
      unfold Executor.Waits
      rw [entries, if_pos ⟨rfl, rfl⟩]
      constructor
      · rintro ⟨time, same⟩
        cases same
        exact ⟨.inr ⟨rfl, rfl, rfl, rfl⟩, named⟩
      · rintro ⟨old | ⟨rfl, -, rfl, -⟩, its_name⟩
        · obtain ⟨time, there⟩ := (tallied.held other name found stateId).mpr ⟨old, its_name⟩
          rw [vacant] at there
          cases there
        · exact ⟨now, rfl⟩
    · have same : (executor.hold key branch token now waits).Waits other name found stateId ↔
          executor.Waits other name found stateId := by
        unfold Executor.Waits
        rw [entries, if_neg slot]
      rw [same, tallied.held]
      refine and_congr_left fun its_name => (or_iff_left ?_).symm
      rintro ⟨-, rfl, rfl, -⟩
      exact slot ⟨rfl, Option.some.inj (its_name.symm.trans named)⟩
  · intro other found stateId open_
    rcases (Executor.isOpen_concat states).mp open_ with old | ⟨-, rfl, rfl, -⟩
    · exact tallied.expected other found stateId old
    · exact expected

/-- A token fails as it comes. -/
theorem Tallied.late (tallied : Tallied env outcomes executor) {reason : Reason} {evidence : Bool}
    {now : Int} (fresh : (key, token.tokenId) ∉ executor.landscape.nodeStates.map NodeState.ident)
    (pending : next.pending = executor.pending)
    (states : next.landscape.nodeStates = executor.landscape.nodeStates ++
      [⟨key, token, now, .failed⟩])
    (recorded : next.landscape.outcomes = executor.landscape.outcomes ++ [token.tokenId])
    (fits : next.completedKeys.Fits (some env.maxCompletedKeys)) :
    Tallied env (outcomes ++ [⟨key, .late reason token evidence⟩]) next := by
  have opens : ∀ other found stateId, next.IsOpen other found stateId ↔
      executor.IsOpen other found stateId := fun _ _ _ =>
    (Executor.isOpen_concat states).trans (or_iff_left (by simp))
  refine ⟨⟨?_, ?_, tallied.distinct_concat states fresh⟩,
    tallied.toAccounts.append (fun status done => ?_) recorded,
    (tallied.toReleases.grow states).quiet nofun, fits⟩
  · simpa only [Executor.Waits, Executor.entry, pending, opens] using tallied.held
  · simpa only [opens] using tallied.expected
  · rw [settledIds_concat states]
    cases status with
    | pending => exact absurd rfl done
    | completed => exact .refl _
    | failed => exact .refl _

/-! ## Closing a group -/

/-- The group is not held any more, and its open states are completed. -/
structure Closed (key : Key) (status : StateStatus) (executor next : Executor Row) : Prop where
  pending : next.pending = executor.pending.erase key
  states : next.landscape.nodeStates = closeGroup key status executor.landscape.nodeStates

section Closed

variable {status : StateStatus} (closed : Closed key status executor next)
include closed

/-- Closing a group begins no state. -/
theorem Closed.arrivals : next.arrivals = executor.arrivals := by
  unfold Executor.arrivals
  rw [closed.states]
  exact map_closeGroup fun _ _ => rfl

theorem Closed.isOpen (done : status ≠ .pending) {other : Key} :
    next.IsOpen other token stateId ↔ other ≠ key ∧ executor.IsOpen other token stateId := by
  unfold Executor.IsOpen
  simp only [closed.states, getElem?_closeGroup done, exists_and_left]

theorem Closed.tracks (done : status ≠ .pending) (tracks : Tracks env executor) :
    Tracks env next where
  held other branch token stateId := by
    rw [closed.isOpen done, Executor.Waits, Executor.entry, closed.pending, lookup_erase]
    by_cases here : other = key
    · simp [here]
    · simp only [here, if_false, ne_eq, not_false_eq_true, true_and]
      exact tracks.held other branch token stateId
  expected other token stateId open_ :=
    tracks.expected other token stateId ((closed.isOpen done).mp open_).2
  distinct := by
    rw [closed.states, map_closeGroup fun _ _ => rfl]
    exact tracks.distinct

/-- An outcome that gives the waiting tokens of a group their status. -/
theorem Tallied.close (tallied : Tallied env outcomes executor) (done : status ≠ .pending)
    (decides : ∀ other, other ≠ .pending → (decidedIds other [outcome]).Perm
      (if status = other then openIds key executor.landscape.nodeStates else []))
    (recorded : next.landscape.outcomes =
      executor.landscape.outcomes ++ (decidedIds .failed [outcome]).map Prod.snd)
    (releases : Releases env (outcomes ++ [outcome]) executor)
    (fits : next.completedKeys.Fits (some env.maxCompletedKeys)) :
    Tallied env (outcomes ++ [outcome]) next := by
  refine ⟨closed.tracks done tallied.toTracks,
    tallied.toAccounts.append (fun other decided => ?_) recorded,
    releases.mono fun came listed => closed.arrivals ▸ listed, fits⟩
  rw [closed.states]
  exact (settledIds_closeGroup decided).trans ((decides other decided).symm.append_left _)

/-- The groups that were not released are not, unless this closing releases them. -/
theorem Closed.unreleased {other : Key} (apart : other = key → status ≠ .completed)
    (before : executor.Unreleased other) : next.Unreleased other := by
  intro state mem same
  rw [closed.states] at mem
  rcases mem_closeGroup mem with ⟨of_key, now⟩ | ⟨old, -⟩
  · rw [now]
    exact apart (same.symm.trans of_key)
  · exact before state old same

/-- Closing a group keeps every other group unreleased. -/
theorem Closed.sound (done : status ≠ .pending) (sound : Sound env outcomes executor)
    {more : List (RowUnionOutcome Row)} (tallied : Tallied env more next) :
    Sound env more next where
  toTallied := tallied
  unreleased other token stateId open_ := by
    obtain ⟨apart, before⟩ := (closed.isOpen done).mp open_
    exact closed.unreleased (fun same => absurd same apart)
      (sound.unreleased other token stateId before)

end Closed

end Transitions

end Elspeth.RowUnion
