import Elspeth.Coalesce.Groups

/-!
# Forgetting closed groups

An executor with a bound on its closed groups is compared with one that keeps them all.
They make the same node states and hold the same groups.  The bounded one may have
forgotten a closed group; it answers alike as long as it finds the group in the Landscape
when it is asked about it.  A group that failed before any arrival is not found there.
-/

namespace Elspeth.Coalesce

open Collections Lineage Dict Worked List Option Executor

variable {Row : Type}

/-- The same environment with an executor that forgets nothing. -/
def Environment.unbounded (env : Environment Row) : Environment Row :=
  { env with maxCompletedKeys := none }

/-- What a caller sees: the outcomes or the error. -/
def answer {α : Type} (result : Except (Raised Row) (α × Executor Row)) : Except CoalesceError α :=
  match result with
  | .ok (value, _) => .ok value
  | .error raised => .error raised.error

theorem Executor.nodeStates_completeNodeStates_congr {first second : Executor Row}
    (same : first.nodeStates = second.nodeStates) (status : StateStatus) (stateIds : List Nat) :
    (first.completeNodeStates status stateIds).nodeStates =
      (second.completeNodeStates status stateIds).nodeStates := by
  refine ext_getElem? fun position => ?_
  rw [getElem?_completeNodeStates, getElem?_completeNodeStates, same]

/-! ## Two executors side by side -/

/-- A bounded executor and one that forgets nothing, after the same calls. -/
structure Mirrors (env : Environment Row) (closed : Key → Prop)
    (bounded unbounded : Executor Row) : Prop where
  holds : Executor.Holds env closed bounded
  holds_unbounded : Executor.Holds env.unbounded closed unbounded
  pending : bounded.pending = unbounded.pending
  states : bounded.nodeStates = unbounded.nodeStates
  listed : ∀ key, closed key → key ∈ unbounded.completedKeys.keys

/-- The groups closed by now. -/
def extend (closed : Key → Prop) (outcomes : List (CoalesceOutcome Row)) (key : Key) : Prop :=
  closed key ∨ ∃ outcome ∈ outcomes, outcome.key = key ∧ outcome.resolves = true

section Mirrors

variable {env : Environment Row} {closed : Key → Prop} {bounded unbounded : Executor Row}
  {key : Key} {pending : PendingCoalesce Row} {settings : CoalesceSettings} {branch : String}
  {α : Type} {outcomes : α → List (CoalesceOutcome Row)}
  {first second : Except (Raised Row) (α × Executor Row)}

theorem extend_eq {listed : List (CoalesceOutcome Row)}
    (quiet : ∀ outcome ∈ listed, outcome.resolves = false) : extend closed listed = closed := by
  refine funext fun key => propext (or_iff_left ?_)
  rintro ⟨outcome, isOutcome, -, resolves⟩
  rw [quiet outcome isOutcome] at resolves
  cases resolves

/-- Both executors answer alike, and mirror each other afterwards. -/
def Alike (env : Environment Row) (closed : Key → Prop)
    (outcomes : α → List (CoalesceOutcome Row))
    (first second : Except (Raised Row) (α × Executor Row)) : Prop :=
  (∃ raised other, first = .error raised ∧ second = .error other ∧ raised.error = other.error) ∨
  ∃ value bounded unbounded, first = .ok (value, bounded) ∧ second = .ok (value, unbounded) ∧
    Mirrors env (extend closed (outcomes value)) bounded unbounded

theorem Alike.answer (alike : Alike env closed outcomes first second) :
    Coalesce.answer first = Coalesce.answer second := by
  rcases alike with ⟨raised, other, rfl, rfl, same⟩ | ⟨value, bounded, unbounded, rfl, rfl, -⟩
  · exact congrArg Except.error same
  · rfl

theorem Alike.map {β : Type} {after : β → List (CoalesceOutcome Row)}
    (alike : Alike env closed outcomes first second) (convert : α → β)
    (same : ∀ value, after (convert value) = outcomes value) :
    Alike env closed after (first.map fun (value, next) => (convert value, next))
      (second.map fun (value, next) => (convert value, next)) := by
  rcases alike with ⟨raised, other, rfl, rfl, equal⟩ |
    ⟨value, bounded, unbounded, rfl, rfl, mirrors⟩
  · exact .inl ⟨raised, other, rfl, rfl, equal⟩
  · exact .inr ⟨convert value, bounded, unbounded, rfl, rfl, same value ▸ mirrors⟩

theorem Alike.raise {error : CoalesceError} {raised other : Executor Row} :
    Alike env closed outcomes (.error ⟨error, raised⟩) (.error ⟨error, other⟩) :=
  .inl ⟨_, _, rfl, rfl, rfl⟩

section

variable (mirrors : Mirrors env closed bounded unbounded)
include mirrors

/-- A call that closes no group is answered alike. -/
theorem Mirrors.alike {value : α} (quiet : ∀ outcome ∈ outcomes value, outcome.resolves = false) :
    Alike env closed outcomes (.ok (value, bounded)) (.ok (value, unbounded)) :=
  .inr ⟨_, _, _, rfl, rfl, (extend_eq quiet).symm ▸ mirrors⟩

theorem Mirrors.waitingFor (key : Key) (now : Int) :
    bounded.waitingFor key now = unbounded.waitingFor key now := by
  unfold Executor.waitingFor
  rw [mirrors.pending]

/-! ## Closed groups -/

theorem Mirrors.checkCompletion {known : Executor Row}
    (checked : bounded.checkCompletion env key = some known) :
    Mirrors env closed known unbounded ∧ key ∈ known.completedKeys.keys ∧
      key ∈ unbounded.completedKeys.keys ∧
      unbounded.checkCompletion env.unbounded key = some unbounded := by
  have remembers : bounded.Remembers key := by
    by_contra forgotten
    rw [checkCompletion_eq_none.mpr forgotten] at checked
    cases checked
  obtain ⟨holds, pending, states, kept⟩ := mirrors.holds.checkCompletion checked
  have listed := mirrors.listed key (mirrors.holds.closed_of_remembers remembers)
  exact ⟨⟨holds, mirrors.holds_unbounded, pending.trans mirrors.pending,
    states.trans mirrors.states, mirrors.listed⟩, kept, listed, if_pos listed⟩

/-- A group that is open for the bounded executor, and recalled, is open for both. -/
theorem Mirrors.open_of_open (recalls : closed key → bounded.Remembers key)
    (open_ : ¬bounded.Remembers key) : ¬closed key ∧ ¬unbounded.Remembers key :=
  ⟨mt recalls open_, mt mirrors.holds_unbounded.closed_of_remembers (mt recalls open_)⟩

theorem acceptLate_alike (kept : key ∈ bounded.completedKeys.keys)
    (listed : key ∈ unbounded.completedKeys.keys) (token : Token Row) :
    Alike env closed (fun outcome => [outcome]) (bounded.acceptLate env key token)
      (unbounded.acceptLate env.unbounded key token) := by
  obtain ⟨merged, found⟩ := mem_keys.mp kept
  obtain ⟨flavor, foundOther⟩ := mem_keys.mp listed
  have isClosed := (mirrors.holds.known key merged found).1
  have released : bounded.hasReleasedGroup key = unbounded.hasReleasedGroup key := by
    unfold hasReleasedGroup
    rw [mirrors.states]
  have completed : bounded.hasCompletedGroup key = unbounded.hasCompletedGroup key := by
    unfold hasCompletedGroup
    rw [mirrors.states]
  rw [mirrors.holds.acceptLate_eq found, mirrors.holds_unbounded.acceptLate_eq foundOther,
    released, completed]
  refine Mirrors.alike ⟨(mirrors.holds.closureOf found).reject isClosed token,
    (mirrors.holds_unbounded.closureOf foundOther).reject isClosed token, ?_, ?_, ?_⟩
    (by simp [CoalesceOutcome.resolves])
  · cases merged <;> cases flavor <;> exact mirrors.pending
  · rw [nodeStates_reject, nodeStates_reject]
    cases merged <;> cases flavor <;> exact congrArg (· ++ _) mirrors.states
  · intro other otherClosed
    cases flavor with
    | some => exact mirrors.listed other otherClosed
    | none => exact mem_keys_set.mpr (.inr (mirrors.listed other otherClosed))

/-! ## Open groups -/

/-- A decision about a group is carried out alike. -/
theorem carryOut_alike (found : unbounded.pending.get key = some pending)
    (registered : env.settings key.1 = some settings) {event : CoalesceEvent}
    (arrives : event = .arrival → 0 < pending.branches.size) {wrap : CoalesceOutcome Row → α}
    (one : ∀ outcome, outcomes (wrap outcome) = [outcome])
    (waits : Alike env closed outcomes first second) (raised other : Executor Row) :
    Alike env closed outcomes
      (carryOut env bounded key raised wrap first (closingOf env settings event key pending))
      (carryOut env.unbounded unbounded key other wrap second
        (closingOf env.unbounded settings event key pending)) := by
  have same : closingOf env.unbounded settings event key pending =
    closingOf env settings event key pending := rfl
  rw [same]
  cases decided : closingOf env settings event key pending with
  | error => exact .raise
  | ok closing =>
    cases closing with
    | none => exact waits
    | some closing =>
      have foundHere := mirrors.pending ▸ found
      have sensible := mirrors.holds.sensible foundHere registered arrives decided
      have sensibleOther := mirrors.holds_unbounded.sensible found registered arrives decided
      have wider : extend closed (outcomes (wrap ⟨key, closing.verdict⟩)) =
          fun other => closed other ∨ other = key := by
        rw [one]
        funext other
        simp [extend, (Closes.resolves sensible.closes).1, @eq_comm _ other]
      refine .inr ⟨_, _, _, rfl, rfl, wider ▸ ⟨mirrors.holds.close foundHere sensible,
        mirrors.holds_unbounded.close found sensibleOther, ?_,
        nodeStates_completeNodeStates_congr mirrors.states _ _, ?_⟩⟩
      · rw [pending_close, pending_close, mirrors.pending]
      · intro other isClosed
        rw [completedKeys_close]
        exact mem_keys_set.mpr (isClosed.symm.imp_right (mirrors.listed other))

section

variable (registered : env.settings key.1 = some settings)
include registered

/-- An arrival at a group that is open for both is answered alike. -/
theorem acceptHeld_alike {token : Token Row} (expected : branch ∈ settings.branches)
    (named : token.branchName = some branch) (grouped : token.forkGroupId = some key.2) (now : Int)
    (open_ : ¬closed key) :
    Alike env closed (fun outcome => [outcome])
      (bounded.acceptHeld env settings key branch token now)
      (unbounded.acceptHeld env.unbounded settings key branch token now) := by
  by_cases new : branch ∈ (unbounded.waitingFor key now).branches.keys
  · have repeated := mirrors.waitingFor key now ▸ new
    exact .inl ⟨_, _, if_pos repeated, if_pos new, rfl⟩
  have newHere : branch ∉ (bounded.waitingFor key now).branches.keys :=
    mirrors.waitingFor key now ▸ new
  have arriving : bounded.arriving key branch token now =
      unbounded.arriving key branch token now := by
    simp [Executor.arriving, mirrors.waitingFor, nextStateId, mirrors.states]
  have after : Mirrors env closed (bounded.holding key branch token now)
      (unbounded.holding key branch token now) :=
    ⟨mirrors.holds.holding registered expected named grouped newHere open_,
      mirrors.holds_unbounded.holding registered expected named grouped new open_,
      by simp [holding, Executor.join, arriving, mirrors.pending], congrArg (· ++ _) mirrors.states,
      mirrors.listed⟩
  obtain ⟨raised, ran⟩ := @acceptHeld_eq _ env _ _ _ _ settings token newHere
  obtain ⟨other, ranOther⟩ := @acceptHeld_eq _ env.unbounded _ _ _ _ settings token new
  rw [ran, ranOther, arriving]
  refine carryOut_alike after (get_set_self ..) registered (fun _ => ?_) (fun _ => rfl)
    (after.alike (by simp [CoalesceOutcome.resolves])) raised other
  have arrived : branch ∈ (unbounded.arriving key branch token now).branches.keys :=
    mem_keys_set.mpr (.inl rfl)
  rw [← length_keys]
  exact length_pos_of_mem arrived

/-- A loss in a group that is open for both is answered alike. -/
theorem evaluateAfterLoss_alike (expected : branch ∈ settings.branches) (reason : String)
    (now : Int) (open_ : ¬closed key) :
    Alike env closed toList
      ((bounded.losing key branch reason now).evaluateAfterLoss env settings key)
      ((unbounded.losing key branch reason now).evaluateAfterLoss env.unbounded settings key) := by
  have after : Mirrors env closed (bounded.losing key branch reason now)
      (unbounded.losing key branch reason now) :=
    ⟨mirrors.holds.losing registered expected open_,
      mirrors.holds_unbounded.losing registered expected open_,
      by simp [losing, Executor.join, mirrors.waitingFor, mirrors.pending],
      congrArg (· ++ _) mirrors.states, mirrors.listed⟩
  have found : (unbounded.losing key branch reason now).pending.get key = some _ := get_set_self ..
  obtain ⟨raised, ran⟩ := @evaluateAfterLoss_eq _ env _ _ _ (after.pending ▸ found) settings
  obtain ⟨other, ranOther⟩ := @evaluateAfterLoss_eq _ env.unbounded _ _ _ found settings
  rw [ran, ranOther]
  refine carryOut_alike after found registered ?_ ?_ (after.alike ?_) _ _ <;> simp

theorem timeOut_alike : Alike env closed (fun outcome => [outcome])
    (bounded.timeOut env settings key) (unbounded.timeOut env.unbounded settings key) := by
  unfold timeOut
  rw [mirrors.pending]
  cases found : unbounded.pending.get key with
  | none => exact .raise
  | some pending =>
    obtain ⟨raised, ran⟩ := @resolvePending_eq _ env _ _ _ (mirrors.pending ▸ found) settings
      .timeout
    obtain ⟨other, ranOther⟩ := @resolvePending_eq _ env.unbounded _ _ _ found settings .timeout
    dsimp only
    rw [ran, ranOther]
    refine carryOut_alike mirrors found registered ?_ ?_ .raise _ _ <;> simp

end

theorem accept_alike (token : Token Row) (name : String) (now : Int)
    (recalls : ∀ groupId, token.forkGroupId = some groupId →
      token.branchName ≠ none → closed (name, groupId) → bounded.Remembers (name, groupId)) :
    Alike env closed (fun outcome => [outcome]) (bounded.accept env token name now)
      (unbounded.accept env.unbounded token name now) := by
  unfold accept
  have settingsSame : env.unbounded.settings name = env.settings name := rfl
  rw [settingsSame]
  cases registered : env.settings name with
  | none => exact .raise
  | some settings =>
    cases named : token.branchName with
    | none => exact .raise
    | some branch =>
      by_cases expected : branch ∉ settings.branches
      · exact .inl ⟨_, _, if_pos expected, if_pos expected, rfl⟩
      simp only [if_neg expected]
      cases grouped : token.forkGroupId with
      | none => exact .raise
      | some groupId =>
        cases checked : bounded.checkCompletion env (name, groupId) with
        | some =>
          obtain ⟨after, kept, listed, same⟩ := mirrors.checkCompletion checked
          simp only [checked, same]
          exact acceptLate_alike after kept listed token
        | none =>
          obtain ⟨open_, forgotten⟩ := mirrors.open_of_open
            (recalls groupId grouped (by simp [named])) (checkCompletion_eq_none.mp checked)
          simp only [checked, checkCompletion_eq_none.mpr forgotten]
          exact acceptHeld_alike mirrors registered (not_not.mp expected) named grouped now open_

theorem notifyBranchLost_alike (name groupId branch reason : String) (now : Int)
    (recalls : closed (name, groupId) → bounded.Remembers (name, groupId)) :
    Alike env closed toList (bounded.notifyBranchLost env name groupId branch reason now)
      (unbounded.notifyBranchLost env.unbounded name groupId branch reason now) := by
  have settingsSame : env.unbounded.settings name = env.settings name := rfl
  cases registered : env.settings name with
  | none =>
    unfold notifyBranchLost
    rw [settingsSame, registered]
    exact .raise
  | some settings =>
    cases checked : bounded.checkCompletion env (name, groupId) with
    | some =>
      obtain ⟨after, -, -, same⟩ := mirrors.checkCompletion checked
      unfold notifyBranchLost
      rw [settingsSame, registered]
      simp only [checked, same]
      exact after.alike (by simp)
    | none =>
      have forgottenHere := checkCompletion_eq_none.mp checked
      obtain ⟨open_, forgotten⟩ := mirrors.open_of_open recalls forgottenHere
      by_cases expected : branch ∈ settings.branches
      · rw [notifyBranchLost_eq registered expected reason now forgottenHere,
          notifyBranchLost_eq (settingsSame.trans registered) expected reason now forgotten,
          mirrors.waitingFor]
        split
        · exact .raise
        · split
          · exact .raise
          · exact evaluateAfterLoss_alike mirrors registered expected reason now open_
      · unfold notifyBranchLost
        rw [settingsSame, registered]
        simp only [checked, checkCompletion_eq_none.mpr forgotten, expected,
          not_false_eq_true, if_true]
        exact .raise

end

/-- Resolving groups one after another is answered alike. -/
theorem resolveAll_alike {first second : Executor Row → Key →
      Except (Raised Row) (CoalesceOutcome Row × Executor Row)} {keys : List Key}
    (alike : ∀ closed bounded unbounded, Mirrors env closed bounded unbounded → ∀ key ∈ keys,
      Alike env closed (fun outcome => [outcome]) (first bounded key) (second unbounded key))
    (mirrors : Mirrors env closed bounded unbounded) :
    Alike env closed id (resolveAll first keys bounded)
      (resolveAll second keys unbounded) := by
  induction keys generalizing closed bounded unbounded with
  | nil => exact mirrors.alike (by simp)
  | cons key keys ih =>
    unfold resolveAll
    rcases alike closed bounded unbounded mirrors key mem_cons_self with
      ⟨raised, other, ran, ranOther, same⟩ | ⟨outcome, next, nextOther, ran, ranOther, after⟩
    · exact .inl ⟨raised, other, by rw [ran]; rfl, by rw [ranOther]; rfl, same⟩
    rcases ih (fun closed bounded unbounded mirrors key later => alike closed bounded unbounded
        mirrors key (mem_cons_of_mem _ later)) after with
      ⟨raised, other, later, laterOther, same⟩ |
        ⟨outcomes, last, lastOther, later, laterOther, final⟩
    · exact .inl ⟨raised, other, by simp only [ran, bind, Except.bind, later],
        by simp only [ranOther, bind, Except.bind, laterOther], same⟩
    · have wider : extend closed (outcome :: outcomes) =
          extend (extend closed [outcome]) outcomes := by
        funext other
        simp [extend]
        tauto
      exact .inr ⟨outcome :: outcomes, last, lastOther,
        by simp only [ran, bind, Except.bind, later]; rfl,
        by simp only [ranOther, bind, Except.bind, laterOther]; rfl, wider ▸ final⟩

end Mirrors

/-! ## Whole histories -/

/-- No flush: the end of input forgets every closed group, with a bound and without. -/
def Unflushed : Condition Row := fun _ _ call =>
  match call with
  | .flushPending => False
  | _ => True

section Runs

variable {env : Environment Row} {history : History Row} {bounded unbounded : Executor Row}

variable {call : Call Row}

/-- A call that is recalled is answered alike. -/
theorem Call.run_alike (mirrors : Mirrors env history.Resolved bounded unbounded)
    (unflushed : Unflushed history bounded call) (recalls : Recalls history bounded call) :
    Alike env history.Resolved id (call.run env bounded) (call.run env.unbounded unbounded) := by
  cases call with
  | accept token name now =>
    refine (accept_alike mirrors token name now ?_).map (fun outcome => [outcome]) fun _ => rfl
    intro groupId grouped named resolved
    obtain ⟨branch, isBranch⟩ := ne_none_iff_exists'.mp named
    exact recalls ((name, groupId), branch) (by simp [Call.member, grouped, isBranch]) resolved
  | notifyBranchLost name groupId branch reason now =>
    refine (notifyBranchLost_alike mirrors name groupId branch reason now ?_).map toList
      fun _ => rfl
    exact recalls ((name, groupId), branch) rfl
  | checkTimeouts name now =>
    simp only [Call.run, Executor.checkTimeouts]
    have settingsSame : env.unbounded.settings name = env.settings name := rfl
    rw [settingsSame]
    cases registered : env.settings name with
    | none => exact .raise
    | some settings =>
      dsimp only
      cases settings.timeoutSeconds with
      | none => exact mirrors.alike (by simp)
      | some timeout =>
        have due : bounded.timedOut name timeout now = unbounded.timedOut name timeout now := by
          unfold timedOut
          rw [mirrors.pending]
        dsimp only
        rw [due]
        refine resolveAll_alike ?_ mirrors
        intro closed other otherUnbounded mirrored key listed
        obtain ⟨⟨_, pending⟩, isEntry, rfl⟩ := mem_map.mp listed
        obtain ⟨-, late⟩ := mem_filter.mp isEntry
        exact timeOut_alike mirrored ((of_decide_eq_true late).1 ▸ registered)
  | flushPending => cases unflushed

theorem History.resolved_eq_extend {outcomes : List (CoalesceOutcome Row)} :
    (history ++ [(call, outcomes)]).Resolved = extend history.Resolved outcomes :=
  funext fun _ => propext History.resolved_append

/-- After a recalled history, an executor that forgets nothing has answered the same. -/
theorem mirrors_of_runs (runs : Runs env (Unflushed ⊓ Recalls) history bounded) :
    ∃ unbounded, Runs env.unbounded Unflushed history unbounded ∧
      Mirrors env history.Resolved bounded unbounded := by
  induction runs with
  | initial =>
    refine ⟨.initial, .initial, Executor.Sound.initial.toHolds, Executor.Sound.initial.toHolds,
      rfl, rfl, ?_⟩
    rintro key ⟨_, ⟨⟩, -⟩
  | call before meets ran ih =>
    obtain ⟨unbounded, runsOther, mirrors⟩ := ih
    rcases Call.run_alike mirrors meets.1 meets.2 with
      ⟨raised, other, failed, -⟩ | ⟨outcomes, next, nextOther, done, doneOther, after⟩
    · rw [failed] at ran
      cases ran
    · rw [done] at ran
      cases ran
      exact ⟨nextOther, .call runsOther meets.1 doneOther, History.resolved_eq_extend ▸ after⟩

/-- **Eviction is unobservable** while every call about a closed group finds it closed: an
executor that forgets nothing has the same history, and gives the next call the same answer. -/
theorem eviction_unobservable (runs : Runs env (Unflushed ⊓ Recalls) history bounded) :
    ∃ unbounded, Runs env.unbounded Unflushed history unbounded ∧
      ∀ call, Unflushed history bounded call → Recalls history bounded call →
        answer (call.run env bounded) = answer (call.run env.unbounded unbounded) := by
  obtain ⟨unbounded, runsOther, mirrors⟩ := mirrors_of_runs runs
  refine ⟨unbounded, runsOther, ?_⟩
  intro call unflushed recalls
  exact (Call.run_alike mirrors unflushed recalls).answer

end Runs

/-- One arrival at an executor that keeps a single closed group. -/
theorem eviction_unobservable_arrival : ∃ history bounded unbounded,
    Runs (env (some 1)) (Unflushed ⊓ Recalls) history bounded ∧
    Runs (env none) Unflushed history unbounded ∧
      answer ((arrives "group" "right").run (env (some 1)) bounded) =
        answer ((arrives "group" "right").run (env none) unbounded) := by
  have runs : Runs (env (some 1)) (Unflushed ⊓ Recalls)
      ([] ++ [(arrives "group" "left", _)]) _ :=
    .call .initial ⟨trivial, by
      rintro member - ⟨outcome, listed, -⟩
      cases listed⟩ rfl
  obtain ⟨unbounded, runsOther, alike⟩ := eviction_unobservable runs
  refine ⟨_, _, unbounded, runs, runsOther, alike _ trivial ?_⟩
  rintro member same ⟨outcome, listed, -⟩
  cases same
  cases listed

/-- With a bound of one, the failure of a second group evicts a first one that failed
before any arrival; the loss of its other branch then fails it again, where an executor
that forgets nothing has no outcome. -/
theorem evicted_group_fails_again : ∃ history bounded unbounded,
    Runs (env (some 1)) (Unflushed ⊓ Reports (env (some 1))) history bounded ∧
    Runs (env none) (Unflushed ⊓ Reports (env none)) history unbounded ∧
      answer ((lost "first" "right").run (env none) unbounded) = .ok [] ∧
      ∃ reason, answer ((lost "first" "right").run (env (some 1)) bounded) =
        .ok [⟨("join", "first"), .failed reason []⟩] := by
  have first : ∀ bound, Runs (env bound) (Unflushed ⊓ Reports (env bound))
      ([] ++ [(lost "first" "left", _)]) _ := fun bound =>
    .call .initial ⟨trivial, ⟨settings, rfl, by decide⟩, nofun⟩ rfl
  have second : Runs (env (some 1)) (Unflushed ⊓ Reports (env (some 1)))
      (_ ++ [(lost "second" "left", _)]) _ :=
    .call (first (some 1)) ⟨trivial, ⟨settings, rfl, by decide⟩, by
      rintro member same
      cases same
      decide⟩ rfl
  have secondOther : Runs (env none) (Unflushed ⊓ Reports (env none))
      (_ ++ [(lost "second" "left", _)]) _ :=
    .call (first none) ⟨trivial, ⟨settings, rfl, by decide⟩, by
      rintro member same
      cases same
      decide⟩ rfl
  exact ⟨_, _, _, second, secondOther, rfl, _, rfl⟩

end Elspeth.Coalesce
