import Elspeth.Orchestrator.Counters
import Elspeth.Semantics.Traced
import Mathlib.Algebra.Order.BigOperators.Group.List
import Mathlib.Tactic.Abel

/-!
# Live counters and the audit

Every bookkeeper adds up the same weights: a pair moves the counters of its table entry
by one, and the count of its destination if it is routed.  The processing loop holds the
weights of all results; a sink write replaces the weights of the diverted tokens by those
of their diversion; and the audit adds up the weights of the records.  Sums do not depend
on order, so neither the calls nor the batches matter.
-/

namespace Elspeth.Orchestrator

open DiversionCounts ExecutionCounters RowResult Semantics List PendingTokenMap Function Option
    Relational

/-! ## Weights -/

/-- One counter: a field, or the count of a destination. -/
inductive CounterKey where
  | field (name : CounterField)
  | destination (sinkName : String)
  deriving DecidableEq

def ExecutionCounters.at (counters : ExecutionCounters) : CounterKey → Nat
  | .field name => counters.tally name
  | .destination sinkName => counters.routedDestinations sinkName

/-- What a table entry adds to each counter. -/
def TerminalPairCounterEffect.weight (effect : TerminalPairCounterEffect)
    (sinkName : Option String) :
    CounterKey → Nat
  | .field name => effect.increments.count name
  | .destination name =>
    if effect.countsRoutedDestination = true ∧ sinkName = some name then 1 else 0

/-- What a pair adds to each counter. -/
def weight (pair : TerminalPair) (sinkName : Option String) : CounterKey → Nat :=
  match terminalPairCounterEffects pair with
  | none => 0
  | some effect => effect.weight sinkName

variable {pair : TerminalPair} {effect : TerminalPairCounterEffect} {pending : PendingTokenMap}
  {sinkName : String} {computeErrorHash : FailureInfo → String} {state : FlushState}
  {results : List RowResult} {counters : ExecutionCounters} {rest : CounterKey → Nat}
  {group : List PendingToken} {fates : List Fate} {record : OutcomeRecord}
  {records : List OutcomeRecord} {dispositions : List Disposition}

theorem weight_of_effect (entry : terminalPairCounterEffects pair = some effect)
    (sinkName : Option String) : weight pair sinkName = effect.weight sinkName := by
  unfold weight
  rw [entry]

/-- The table names no counter twice for one pair. -/
theorem increments_nodup (entry : terminalPairCounterEffects pair = some effect) :
    effect.increments.Nodup := by
  unfold terminalPairCounterEffects at entry
  split at entry <;> cases entry <;> decide

theorem applyCounterIncrements_at (counters : ExecutionCounters)
    (effect : TerminalPairCounterEffect) :
    (applyCounterIncrements counters effect).routedDestinations = counters.routedDestinations ∧
      ∀ field, (applyCounterIncrements counters effect).tally field =
        counters.tally field + effect.increments.count field := by
  unfold applyCounterIncrements
  induction effect.increments generalizing counters with
  | nil => exact ⟨rfl, fun _ => rfl⟩
  | cons head fields ih =>
    obtain ⟨destinations, tallies⟩ := ih (counters.bump head)
    refine ⟨destinations, fun field => ?_⟩
    rw [foldl_cons, tallies, bump, count_cons]
    by_cases here : head = field
    · subst here
      simp only [update_self, beq_self_eq_true, if_true]
      omega
    · simp [update_of_ne (Ne.symm here), here]

/-- Counting a pair adds its weight. -/
theorem at_counted (counters : ExecutionCounters) (effect : TerminalPairCounterEffect)
    (sinkName : Option String) (routed : effect.countsRoutedDestination = true → sinkName ≠ none) :
    (match effect.countsRoutedDestination, sinkName with
      | true, some name => (applyCounterIncrements counters effect).countDestination name
      | _, _ => applyCounterIncrements counters effect).at =
      counters.at + effect.weight sinkName := by
  obtain ⟨destinations, tallies⟩ := applyCounterIncrements_at counters effect
  funext key
  cases counts : effect.countsRoutedDestination with
  | false =>
    cases key with
    | field name => exact tallies name
    | destination name =>
      simp [destinations, ExecutionCounters.at, TerminalPairCounterEffect.weight, counts]
  | true =>
    obtain ⟨target, rfl⟩ := ne_none_iff_exists'.mp (routed counts)
    cases key with
    | field name => exact tallies name
    | destination name =>
      show update _ target _ name = _
      by_cases here : target = name
      · subst here
        simp [destinations, ExecutionCounters.at, TerminalPairCounterEffect.weight, counts]
      · simp [update_of_ne (Ne.symm here), destinations, ExecutionCounters.at,
          TerminalPairCounterEffect.weight, counts, here]

/-! ## The processing loop -/

/-- The queued tokens, each with its sink. -/
def PendingTokenMap.queued (pending : PendingTokenMap) : List (String × PendingToken) :=
  pending.flatMap fun entry => entry.2.map fun token => (entry.1, token)

theorem queued_push (token : PendingToken) (configured : sinkName ∈ pending.map Prod.fst) :
    (pending.push sinkName token).queued.Perm ((sinkName, token) :: pending.queued) := by
  induction pending with
  | nil => cases configured
  | cons entry rest ih =>
    unfold push
    split
    next here =>
      subst here
      simp only [queued, flatMap_cons, map_append, map_cons,
        map_nil, append_assoc, singleton_append]
      exact perm_middle
    next apart =>
      have inRest : sinkName ∈ rest.map Prod.fst := by
        rcases mem_cons.mp configured with same | later
        · exact absurd same.symm apart
        · exact later
      exact ((ih inRest).append_left _).trans perm_middle

/-- A result is queued for its sink with its own pair. -/
def Queues (result : RowResult) (entry : String × PendingToken) : Prop :=
  result.sinkName = some entry.1 ∧ entry.2.pair = result.pair

/-- Whether the table sends a result to a sink. -/
def RowResult.routed (result : RowResult) : Bool :=
  (terminalPairCounterEffects result.pair).any result.routes

theorem requireSinkName_eq_ok {result : RowResult} :
    requireSinkName result = .ok sinkName ↔ result.sinkName = some sinkName := by
  unfold requireSinkName
  cases result.sinkName <;> simp

/-- What counting one result does. -/
theorem accumulateRowOutcome_ok {result : RowResult}
    {state state' : ExecutionCounters × PendingTokenMap}
    (ran : accumulateRowOutcome computeErrorHash state result = .ok state') :
    state'.1.at = state.1.at + weight result.pair result.sinkName ∧
      ((result.routed = false ∧ state'.2 = state.2) ∨
        result.routed = true ∧ ∃ entry, Queues result entry ∧
          state'.2.queued.Perm (entry :: state.2.queued)) := by
  unfold accumulateRowOutcome at ran
  split at ran
  · cases ran
  next effect entry =>
  split at ran
  · cases ran
  obtain ⟨errorHash, -, ran⟩ := bind_eq_ok.mp ran
  obtain ⟨counters, counting, ran⟩ := bind_eq_ok.mp ran
  obtain ⟨pending, queueing, ran⟩ := bind_eq_ok.mp ran
  cases ran
  refine ⟨?_, ?_⟩
  · have added := at_counted state.1 effect result.sinkName
    rw [weight_of_effect entry]
    unfold countRouted at counting
    split at counting
    next counts =>
      obtain ⟨sinkName, named, rfl⟩ := map_eq_ok.mp counting
      rw [requireSinkName_eq_ok] at named
      rw [counts, named] at added
      rw [named]
      exact added (by simp)
    next plain =>
      cases counting
      rw [Bool.eq_false_iff.mpr plain] at added
      exact added nofun
  · have isRouted : result.routed = result.routes effect := by
      unfold routed
      rw [entry]
      rfl
    rw [isRouted]
    unfold queueResult at queueing
    split at queueing
    next routes =>
      obtain ⟨sinkName, named, queueing⟩ := bind_eq_ok.mp queueing
      simp only [routeToSink] at queueing
      split at queueing
      · cases queueing
      next configured =>
      split at queueing
      · cases queueing
      split at queueing
      · cases queueing
        exact .inr ⟨routes, (sinkName, _), ⟨requireSinkName_eq_ok.mp named, rfl⟩,
          queued_push _ (not_not.mp configured)⟩
      · cases queueing
    next plain =>
      cases queueing
      exact .inl ⟨Bool.eq_false_iff.mpr plain, rfl⟩

/-- The summed weights of some results. -/
def resultWeights (results : List RowResult) : CounterKey → Nat :=
  (results.map fun result => weight result.pair result.sinkName).sum

/-- The summed weights of some queued tokens. -/
def queueWeights (entries : List (String × PendingToken)) : CounterKey → Nat :=
  (entries.map fun entry => weight entry.2.pair (some entry.1)).sum

theorem accumulateRowOutcomes_ok {state state' : ExecutionCounters × PendingTokenMap}
    (ran : accumulateRowOutcomes computeErrorHash results state = .ok state') :
    state'.1.at = state.1.at + resultWeights results ∧ ∃ entries,
      Forall₂ Queues (results.filter routed) entries ∧
        state'.2.queued.Perm (entries ++ state.2.queued) := by
  unfold accumulateRowOutcomes at ran
  induction results generalizing state with
  | nil =>
    cases ran
    exact ⟨rfl, [], .nil, .refl _⟩
  | cons result results ih =>
    obtain ⟨middle, first, ran⟩ := bind_eq_ok.mp ran
    obtain ⟨counted, queued⟩ := accumulateRowOutcome_ok first
    obtain ⟨restCounted, entries, sides, restQueued⟩ := ih ran
    refine ⟨?_, ?_⟩
    · rw [restCounted, counted, add_assoc]
      rfl
    · rcases queued with ⟨unrouted, same⟩ | ⟨routed, entry, queues, perm⟩
      · refine ⟨entries, ?_, ?_⟩
        · rwa [filter_cons_of_neg (by simp [unrouted])]
        · rwa [same] at restQueued
      · refine ⟨entry :: entries, ?_, ?_⟩
        · rw [filter_cons_of_pos routed]
          exact .cons queues sides
        · exact (restQueued.trans (perm.append_left _)).trans perm_middle

/-- Several calls are one call with all results. -/
theorem accumulateCalls_eq (computeErrorHash : FailureInfo → String)
    (calls : List (List RowResult)) (state : ExecutionCounters × PendingTokenMap) :
    accumulateCalls computeErrorHash calls state =
      accumulateRowOutcomes computeErrorHash calls.flatten state := by
  unfold accumulateCalls accumulateRowOutcomes
  induction calls generalizing state with
  | nil => rfl
  | cons results calls ih =>
    rw [flatten_cons, foldlM_append]
    exact bind_congr fun state => ih state

theorem queueWeights_of_queues {entries : List (String × PendingToken)}
    (sides : Forall₂ Queues results entries) :
    queueWeights entries = resultWeights results := by
  induction sides with
  | nil => rfl
  | cons queues _ ih =>
    simp only [queueWeights, resultWeights, map_cons, sum_cons] at ih ⊢
    rw [ih, queues.1, queues.2]

theorem resultWeights_split (results : List RowResult) :
    resultWeights results = resultWeights (results.filter fun result => !result.routed) +
      resultWeights (results.filter routed) := by
  have perm := filter_append_perm routed results
  have sums := (perm.map fun result => weight result.pair result.sinkName).sum_eq
  rw [map_append, sum_append] at sums
  unfold resultWeights
  rw [← sums, add_comm]

/-! ## Sink writes -/

theorem foldl_reduce (diversions : Nat) {fields : List CounterField} (once : fields.Nodup)
    (counters : ExecutionCounters) :
    (fields.foldl (reduce diversions) counters).routedDestinations =
        counters.routedDestinations ∧
      ∀ field, (fields.foldl (reduce diversions) counters).tally field =
        counters.tally field - diversions * fields.count field := by
  induction fields generalizing counters with
  | nil => exact ⟨rfl, fun _ => by simp⟩
  | cons head fields ih =>
    obtain ⟨new, once⟩ := nodup_cons.mp once
    obtain ⟨destinations, tallies⟩ := ih once (counters.reduce diversions head)
    refine ⟨destinations, fun field => ?_⟩
    rw [foldl_cons, tallies, reduce]
    by_cases here : head = field
    · subst here
      simp [count_eq_zero.mpr new]
    · simp [update_of_ne (Ne.symm here), here]

/-- Reconciling takes out exactly the weights of the diverted tokens, and cannot fail
while these are in. -/
theorem reconcile_ok {diversions : Nat} (entry : terminalPairCounterEffects pair = some effect)
    (reconcilable : effect.sinkReconcilable = true)
    (covers : counters.at = rest + diversions • weight pair (some sinkName)) :
    ∃ reconciled, reconcileSinkWriteDiversions counters sinkName pair diversions = .ok reconciled ∧
      reconciled.at = rest := by
  rw [weight_of_effect entry] at covers
  have field (name : CounterField) : counters.tally name =
      rest (.field name) + diversions * effect.increments.count name :=
    congrFun covers (.field name)
  have destination (name : String) : counters.routedDestinations name =
      rest (.destination name) + diversions * effect.weight (some sinkName) (.destination name) :=
    congrFun covers (.destination name)
  unfold reconcileSinkWriteDiversions
  split
  next none =>
    refine ⟨counters, rfl, ?_⟩
    rw [covers, none, zero_nsmul, add_zero]
  next some_ =>
  have once := increments_nodup entry
  have guard : effect.increments.find? (fun name => counters.tally name < diversions) = none := by
    rw [find?_eq_none]
    intro name listed
    rw [field name, count_eq_one_of_mem once listed]
    simp
  simp only [entry, reconcilable, Bool.true_eq_false, if_false, guard]
  obtain ⟨kept, reduced⟩ := foldl_reduce diversions once counters
  have fields (name : CounterField) :
      counters.tally name - diversions * effect.increments.count name = rest (.field name) := by
    rw [field name, Nat.add_sub_cancel]
  cases counts : effect.countsRoutedDestination with
  | false =>
    refine ⟨_, if_neg (by simp), ?_⟩
    funext key
    cases key with
    | field => exact (reduced ..).trans (fields ..)
    | destination name =>
      show (foldl _ counters _).routedDestinations name = _
      rw [kept, destination name]
      simp [TerminalPairCounterEffect.weight, counts]
  | true =>
    have own : counters.routedDestinations sinkName =
        rest (.destination sinkName) + diversions := by
      rw [destination sinkName]
      simp [TerminalPairCounterEffect.weight, counts]
    refine ⟨_, if_neg (by simp [own]), ?_⟩
    funext key
    cases key with
    | field => exact (reduced ..).trans (fields ..)
    | destination name =>
      show update _ sinkName _ name = _
      by_cases here : sinkName = name
      · subst here
        rw [update_self, kept, own, Nat.add_sub_cancel]
      · rw [update_of_ne (Ne.symm here), kept, destination name]
        simp [TerminalPairCounterEffect.weight, here]

theorem value_injective : Function.Injective TerminalPath.value := by
  intro left right
  cases left <;> cases right <;> simp [TerminalPath.value]

/-- The sort key determines the pair. -/
theorem pair_of_sortKey {left right : PendingToken}
    (same : pendingSortKey left = pendingSortKey right) : left.pair = right.pair := by
  simp only [pendingSortKey, cons.injEq, and_true] at same
  obtain ⟨outcomes, paths, -⟩ := same
  have outcome : left.pending.outcome = right.pending.outcome := by
    revert outcomes
    rcases left.pending.outcome with _ | _ | _ | _ <;>
      rcases right.pending.outcome with _ | _ | _ | _ <;> simp [TerminalOutcome.value]
  exact Prod.ext outcome (value_injective paths)

/-- The batches of a queue hold its tokens, and each batch tokens of one pair. -/
theorem pendingGroups_spec (queue : List PendingToken) :
    (pendingGroups queue).flatten.Perm queue ∧
      ∀ group ∈ pendingGroups queue, ∃ pair, ∀ token ∈ group, token.pair = pair := by
  unfold pendingGroups
  refine ⟨?_, ?_⟩
  · rw [flatten_splitBy]
    exact mergeSort_perm _ _
  · intro group listed
    cases group with
    | nil => exact ⟨(none, .buffered), nofun⟩
    | cons first others =>
      have chain := isChain_of_mem_splitBy listed
      refine ⟨first.pair, ?_⟩
      have pairwise : Pairwise (fun left right => pendingSortKey left = pendingSortKey right)
          (first :: others) := by
        exact isChain_iff_pairwise.mp
          (chain.imp fun _ _ related => of_decide_eq_true related)
      intro token member
      rcases mem_cons.mp member with rfl | other
      · rfl
      · exact (pair_of_sortKey (rel_of_pairwise_cons pairwise other)).symm

/-- The weight that a disposition leaves in the provisional counters. -/
def Disposition.kept (disposition : Disposition) : CounterKey → Nat :=
  match disposition.fate with
  | .written => weight disposition.token.pair (some disposition.sinkName)
  | _ => 0

/-- The fates a flush reports are those it counted. -/
def FlushState.Counted (state : FlushState) : Prop :=
  state.diversions = of (state.dispositions.map Disposition.fate)

/-- The weights of a batch are those of its written tokens and those of its diversions. -/
theorem queueWeights_batch (sinkName : String) (same : ∀ token ∈ group, token.pair = pair)
    (sized : fates.length = group.length) :
    queueWeights (group.map fun token => (sinkName, token)) =
      ((zipWith (fun token fate => (⟨sinkName, token, fate⟩ : Disposition)) group fates).map
        Disposition.kept).sum +
        (of fates).total • weight pair (some sinkName) := by
  induction group generalizing fates with
  | nil =>
    obtain rfl := length_eq_zero_iff.mp sized
    simp [queueWeights, of, total]
  | cons token group ih =>
    cases fates with
    | nil => cases sized
    | cons fate fates =>
      have rest := ih (fun other listed => same other (mem_cons_of_mem _ listed))
        (Nat.succ.inj sized)
      have here := same token mem_cons_self
      unfold queueWeights at rest ⊢
      simp only [map_cons, sum_cons, zipWith_cons_cons, rest, here]
      have diverts (other : Fate) (diverted : other ≠ .written) :
          (of (other :: fates)).total = (of fates).total + 1 := by
        cases other <;> simp [of, total] at diverted ⊢ <;> omega
      cases fate with
      | written =>
        simp only [Disposition.kept, here]
        abel
      | failsink | discarded =>
        rw [diverts, succ_nsmul]
        · abel
        · nofun

/-- The token's pair may be reconciled. -/
def Reconcilable (token : PendingToken) : Prop :=
  ∃ effect, terminalPairCounterEffects token.pair = some effect ∧ effect.sinkReconcilable = true

theorem diversionCounts_append (left right : List Fate) :
    of (left ++ right) =
      ⟨(of left).failsinkMode + (of right).failsinkMode,
        (of left).discardMode + (of right).discardMode⟩ := by
  simp [of]

/-- The dispositions of a batch, one for each token. -/
theorem map_zipWith_dispositions (sinkName : String) (sized : fates.length = group.length) :
    (zipWith (fun token fate => (⟨sinkName, token, fate⟩ : Disposition)) group fates).map
        Disposition.fate = fates ∧
      (zipWith (fun token fate => (⟨sinkName, token, fate⟩ : Disposition)) group fates).map
        (fun disposition => (disposition.sinkName, disposition.token)) =
          group.map fun token => (sinkName, token) := by
  induction group generalizing fates with
  | nil =>
    obtain rfl := length_eq_zero_iff.mp sized
    exact ⟨rfl, rfl⟩
  | cons token group ih =>
    cases fates with
    | nil => cases sized
    | cons fate fates =>
      obtain ⟨fatesSame, tokensSame⟩ := ih (Nat.succ.inj sized)
      simp only [zipWith_cons_cons, map_cons, fatesSame, tokensSame, and_self]

/-- What writing some queued tokens does to the state of a flush: their provisional
weights, on top of `rest`, are replaced by the weights of those that were written. -/
def Writes (entries : List (String × PendingToken)) (rest : CounterKey → Nat)
    (before after : FlushState) : Prop :=
  ∃ new, after.dispositions = before.dispositions ++ new ∧
    (new.map fun disposition => (disposition.sinkName, disposition.token)).Perm entries ∧
    after.counters.at = rest + (new.map Disposition.kept).sum ∧ after.Counted

theorem writeGroup_ok (writer : SinkWriter) (same : ∀ token ∈ group, token.pair = pair)
    (reconcilable : ∀ token ∈ group, Reconcilable token) (counted : state.Counted)
    (covers : state.counters.at = rest + queueWeights (group.map fun token => (sinkName, token))) :
    ∃ after, writeGroup writer sinkName state group = .ok after ∧
      Writes (group.map fun token => (sinkName, token)) rest state after := by
  cases group with
  | nil =>
    refine ⟨state, rfl, [], by simp, .refl _, ?_, counted⟩
    simpa [queueWeights] using covers
  | cons first others =>
    obtain ⟨effect, entry, mayReconcile⟩ := reconcilable first mem_cons_self
    have sized := writer.length_write sinkName (first :: others)
    rw [queueWeights_batch sinkName same sized, ← add_assoc] at covers
    rw [← same first mem_cons_self] at covers
    obtain ⟨reconciled, ran, left⟩ := reconcile_ok entry mayReconcile covers
    obtain ⟨fates, tokens⟩ := map_zipWith_dispositions sinkName sized
    refine ⟨_, by simp only [writeGroup, head?_cons, ran]; rfl, _, rfl, ?_, left, ?_⟩
    · rw [tokens]
    · unfold FlushState.Counted at counted ⊢
      simp only [map_append, diversionCounts_append, fates, ← counted]

/-- Writes one after the other. -/
theorem foldlM_writes {Item : Type} (step : FlushState → Item → Except InvariantFault FlushState)
    (entries : Item → List (String × PendingToken)) {items : List Item}
    (steps : ∀ item ∈ items, ∀ state rest, state.Counted →
      state.counters.at = rest + queueWeights (entries item) →
        ∃ after, step state item = .ok after ∧ Writes (entries item) rest state after)
    (counted : state.Counted)
    (covers : state.counters.at = rest + queueWeights (items.flatMap entries)) :
    ∃ after, items.foldlM step state = .ok after ∧
      Writes (items.flatMap entries) rest state after := by
  induction items generalizing state rest with
  | nil =>
    refine ⟨state, rfl, [], by simp, .refl _, ?_, counted⟩
    simpa [queueWeights] using covers
  | cons item items ih =>
    have split : queueWeights ((item :: items).flatMap entries) =
        queueWeights (items.flatMap entries) + queueWeights (entries item) := by
      simp only [queueWeights, flatMap_cons, map_append, sum_append]
      exact add_comm _ _
    rw [split, ← add_assoc] at covers
    obtain ⟨middle, first, new, added, perm, left, middleCounted⟩ :=
      steps item mem_cons_self state _ counted covers
    rw [add_right_comm] at left
    obtain ⟨after, others, more, moreAdded, morePerm, moreLeft, afterCounted⟩ :=
      ih (fun other listed => steps other (mem_cons_of_mem _ listed)) middleCounted left
    refine ⟨after, by rw [foldlM_cons, first]; exact others, new ++ more, ?_, ?_, ?_,
      afterCounted⟩
    · rw [moreAdded, added, append_assoc]
    · rw [map_append]
      exact perm.append morePerm
    · rw [moreLeft, map_append, sum_append, add_assoc]

theorem writePendingToSinks_ok (writer : SinkWriter)
    (reconcilable : ∀ entry ∈ pending.queued, Reconcilable entry.2) (counted : state.Counted)
    (covers : state.counters.at = rest + queueWeights pending.queued) :
    ∃ after, writePendingToSinks writer pending state = .ok after ∧
      Writes pending.queued rest state after := by
  refine foldlM_writes _
    (fun entry : String × List PendingToken => entry.2.map fun token => (entry.1, token)) ?_
    counted covers
  rintro ⟨sinkName, queue⟩ listed state rest counted covers
  obtain ⟨perm, batches⟩ := pendingGroups_spec queue
  -- The batches of one queue hold the same entries, in another order.
  have entries : ((pendingGroups queue).flatMap fun group =>
      group.map fun token => (sinkName, token)).Perm (queue.map fun token =>
          (sinkName, token)) := by
    rw [flatMap_def, ← map_flatten]
    exact perm.map _
  have weights : queueWeights (queue.map fun token => (sinkName, token)) =
      queueWeights ((pendingGroups queue).flatMap fun group =>
        group.map fun token => (sinkName, token)) :=
    ((entries.symm.map _).sum_eq)
  rw [weights] at covers
  obtain ⟨after, ran, new, added, newPerm, left, afterCounted⟩ :=
    foldlM_writes (writeGroup writer sinkName) (fun group =>
      group.map fun token => (sinkName, token))
      (fun group isGroup state rest counted covers => by
        obtain ⟨pair, same⟩ := batches group isGroup
        refine writeGroup_ok writer same ?_ counted covers
        intro token member
        refine reconcilable (sinkName, token) ?_
        have inQueue := perm.mem_iff.mp (mem_flatten.mpr ⟨group, isGroup, member⟩)
        exact mem_flatMap.mpr ⟨(sinkName, queue), listed, mem_map.mpr ⟨token, inQueue, rfl⟩⟩)
      counted covers
  exact ⟨after, ran, new, added, newPerm.trans entries, left, afterCounted⟩

/-- The pair a token is recorded with, and its sink where that counts. -/
def Disposition.weight (disposition : Disposition) : CounterKey → Nat :=
  match disposition.fate with
  | .written => Orchestrator.weight disposition.token.pair (some disposition.sinkName)
  | .failsink => Orchestrator.weight (some .transient, .sinkFallbackToFailsink) none
  | .discarded => Orchestrator.weight (some .failure, .sinkDiscarded) none

/-- What the flush adds after the last write is the weight of the diversions. -/
theorem sum_weight_dispositions (dispositions : List Disposition) (key : CounterKey) :
    (dispositions.map Disposition.weight).sum key =
      (dispositions.map Disposition.kept).sum key +
        (if key = .field .rowsDiverted then
          (of (dispositions.map Disposition.fate)).total else 0) +
        (if key = .field .rowsFailed then
          (of (dispositions.map Disposition.fate)).discardMode else 0) := by
  induction dispositions with
  | nil => simp [of, total]
  | cons disposition dispositions ih =>
    obtain ⟨sinkName, token, fate⟩ := disposition
    simp only [map_cons, sum_cons, Pi.add_apply, ih]
    cases fate with
    | written =>
      simp [Disposition.weight, Disposition.kept, of, total]
      omega
    | failsink | discarded =>
      rcases key with name | name
      · cases name <;> simp [Disposition.weight, Disposition.kept, Orchestrator.weight,
          terminalPairCounterEffects, TerminalPairCounterEffect.weight, of,
          total] <;> omega
      · simp [Disposition.weight, Disposition.kept, Orchestrator.weight,
          terminalPairCounterEffects, TerminalPairCounterEffect.weight]

/-- **A flush cannot underflow**, and leaves the weights of what became of each token. -/
theorem flushAndWriteSinks_ok (writer : SinkWriter)
    (reconcilable : ∀ entry ∈ pending.queued, Reconcilable entry.2)
    (covers : counters.at = rest + queueWeights pending.queued) :
    ∃ flushed dispositions,
      flushAndWriteSinks writer counters pending = .ok (flushed, dispositions) ∧
      (dispositions.map fun disposition => (disposition.sinkName, disposition.token)).Perm
        pending.queued ∧
      flushed.at = rest + (dispositions.map Disposition.weight).sum := by
  have start : (⟨counters, ⟨0, 0⟩, []⟩ : FlushState).Counted := rfl
  obtain ⟨written, ran, new, added, perm, left, counted⟩ :=
    writePendingToSinks_ok writer reconcilable start covers
  have all : written.dispositions = new := added
  refine ⟨_, written.dispositions, by simp only [flushAndWriteSinks, ran]; rfl, all ▸ perm, ?_⟩
  funext key
  rw [Pi.add_apply, sum_weight_dispositions, ← counted, ← Nat.add_assoc, ← Nat.add_assoc]
  have here : written.counters.at key = rest key +
      (written.dispositions.map Disposition.kept).sum key := by
    rw [left, all]
    rfl
  rw [← here]
  cases key with
  | field name | destination name => simp [ExecutionCounters.at]

/-! ## The audit -/

/-- What a record adds to the derived counters: a consumed input of a merge adds nothing. -/
def OutcomeRecord.weight (record : OutcomeRecord) : CounterKey → Nat :=
  if record.pair = (some .success, .coalesced) ∧ record.sinkName = none then 0
  else Orchestrator.weight record.pair record.sinkName

/-- The record's pair is in the table, and a routed record names its sink. -/
def OutcomeRecord.Countable (record : OutcomeRecord) : Prop :=
  record.path ≠ .abandoned ∧ ∃ effect, terminalPairCounterEffects record.pair = some effect ∧
    (effect.countsRoutedDestination = true → record.sinkName ≠ none)

theorem deriveRecord_ok (countable : record.Countable) (counters : ExecutionCounters) :
    ∃ derived, deriveRecord counters record = .ok derived ∧
      derived.at = counters.at + record.weight := by
  obtain ⟨decided, effect, entry, routed⟩ := countable
  have added := at_counted counters effect record.sinkName routed
  unfold deriveRecord OutcomeRecord.weight
  split
  next open_ =>
    -- The one open pair of the table that is not abandoned is the buffered one.
    have undecided : record.outcome = none := by
      have same := record.decided
      rw [open_] at same
      exact isSome_eq_false_iff.mp same.symm |> isNone_iff_eq_none.mp
    have buffered : record.path = .buffered := by
      unfold OutcomeRecord.pair at entry
      rw [undecided] at entry
      revert entry decided
      cases record.path <;> simp [terminalPairCounterEffects]
    have pair : record.pair = (none, .buffered) := by
      unfold OutcomeRecord.pair
      rw [undecided, buffered]
    obtain rfl : effect = { increments := [.rowsBuffered] } := by
      rw [pair] at entry
      exact (some.inj entry).symm
    rw [if_pos pair]
    refine ⟨_, rfl, ?_⟩
    rw [if_neg (by simp [pair]), weight_of_effect entry, ← added]
  next _ =>
    simp only [entry]
    split
    next consumed =>
      refine ⟨counters, rfl, ?_⟩
      have noSink : record.sinkName = none := by simpa [isCountedCoalescedOutput] using consumed.2
      rw [if_pos ⟨consumed.1, noSink⟩, add_zero]
    next counted =>
      have weighed : ¬ (record.pair = (some .success, .coalesced) ∧ record.sinkName = none) := by
        rintro ⟨pair, noSink⟩
        exact counted ⟨pair, by simp [isCountedCoalescedOutput, noSink]⟩
      rw [if_neg weighed, weight_of_effect entry, ← added]
      cases counts : effect.countsRoutedDestination with
      | false => exact ⟨_, rfl, rfl⟩
      | true =>
        obtain ⟨sinkName, named⟩ := ne_none_iff_exists'.mp (routed counts)
        rw [named]
        exact ⟨_, rfl, rfl⟩

theorem deriveRecords_ok (countable : ∀ record ∈ records, record.Countable)
    (counters : ExecutionCounters) :
    ∃ derived, records.foldlM deriveRecord counters = .ok derived ∧
      derived.at = counters.at + (records.map OutcomeRecord.weight).sum := by
  induction records generalizing counters with
  | nil => exact ⟨counters, rfl, rfl⟩
  | cons record records ih =>
    obtain ⟨middle, first, added⟩ := deriveRecord_ok (countable record mem_cons_self) counters
    obtain ⟨derived, rest, all⟩ :=
      ih (fun other listed => countable other (mem_cons_of_mem _ listed)) middle
    refine ⟨derived, by rw [foldlM_cons, first]; exact rest, ?_⟩
    rw [all, added, map_cons, sum_cons, add_assoc]

/-- Every pair that counts a part also counts the whole. -/
theorem weight_subset (pair : TerminalPair) (sinkName : Option String) :
    weight pair sinkName (.field .rowsRoutedSuccess) ≤
        weight pair sinkName (.field .rowsSucceeded) ∧
      weight pair sinkName (.field .rowsRoutedFailure) ≤ weight pair sinkName (.field .rowsFailed) ∧
      weight pair sinkName (.field .rowsQuarantined) ≤
        weight pair sinkName (.field .rowsFailed) := by
  obtain ⟨outcome, path⟩ := pair
  unfold weight
  cases entry : terminalPairCounterEffects (outcome, path) with
  | none => exact ⟨Nat.le_refl _, Nat.le_refl _, Nat.le_refl _⟩
  | some effect =>
    unfold terminalPairCounterEffects at entry
    split at entry <;> cases entry <;> simp [TerminalPairCounterEffect.weight]

theorem recordWeights_subset (records : List OutcomeRecord) :
    (records.map OutcomeRecord.weight).sum (.field .rowsRoutedSuccess) ≤
        (records.map OutcomeRecord.weight).sum (.field .rowsSucceeded) ∧
      (records.map OutcomeRecord.weight).sum (.field .rowsRoutedFailure) ≤
        (records.map OutcomeRecord.weight).sum (.field .rowsFailed) ∧
      (records.map OutcomeRecord.weight).sum (.field .rowsQuarantined) ≤
        (records.map OutcomeRecord.weight).sum (.field .rowsFailed) := by
  induction records with
  | nil => exact ⟨Nat.le_refl _, Nat.le_refl _, Nat.le_refl _⟩
  | cons record records ih =>
    simp only [map_cons, sum_cons, Pi.add_apply]
    have here := weight_subset record.pair record.sinkName
    unfold OutcomeRecord.weight at ih ⊢
    split
    · simpa using ih
    · omega

/-! ## Agreement -/

/-- The record of a result that went to no sink. -/
def OwnRecord (result : RowResult) (record : OutcomeRecord) : Prop :=
  record.pair = result.pair ∧ record.sinkName = result.sinkName

/-- The record of a token that went to a sink. -/
def DisposedRecord (disposition : Disposition) (record : OutcomeRecord) : Prop :=
  match disposition.fate with
  | .written => record.pair = disposition.token.pair ∧ record.sinkName = some disposition.sinkName
  | .failsink => record.pair = (some .transient, .sinkFallbackToFailsink)
  | .discarded => record.pair = (some .failure, .sinkDiscarded)

/-- The record of a branch that a merge consumed. -/
def ConsumedRecord (record : OutcomeRecord) : Prop :=
  record.pair = (some .success, .coalesced) ∧ record.sinkName = none

/-- The recorded outcomes are those of the results, and of consumed branches besides. -/
def Audits (results : List RowResult) (dispositions : List Disposition)
    (records : List OutcomeRecord) : Prop :=
  ∃ own disposed consumed, records.Perm (own ++ disposed ++ consumed) ∧
    Forall₂ OwnRecord (results.filter fun result => !result.routed) own ∧
    Forall₂ DisposedRecord dispositions disposed ∧ ∀ record ∈ consumed, ConsumedRecord record

theorem countable_of_unrouted (same : record.pair = pair)
    (entry : terminalPairCounterEffects pair = some effect)
    (unrouted : effect.countsRoutedDestination = false) (kept : pair.2 ≠ .abandoned) :
    record.Countable := by
  have path : record.path = pair.2 := congrArg Prod.snd same
  refine ⟨path ▸ kept, effect, same ▸ entry, ?_⟩
  intro routed
  exact absurd (unrouted.symm.trans routed) Bool.false_ne_true

theorem Audits.countable (audits : Audits results dispositions records)
    (queued : ∀ disposition ∈ dispositions, ∃ result ∈ results, Queues result
      (disposition.sinkName, disposition.token)) : ∀ record ∈ records, record.Countable := by
  obtain ⟨own, disposed, consumed, perm, ownSides, disposedSides, isConsumed⟩ := audits
  -- A result's pair is in the table, is not abandoned, and names its sink if it is routed.
  have ofResult {record : OutcomeRecord} {result : RowResult} (pair : record.pair = result.pair)
      (sink : record.sinkName = result.sinkName) : record.Countable := by
    obtain ⟨effect, entry⟩ := isSome_iff_exists.mp result.legal.1
    have path : record.path = result.path := congrArg Prod.snd pair
    refine ⟨path ▸ result.legal.2, effect, pair ▸ entry, fun counts => sink ▸ ?_⟩
    refine result.sinkBound ?_
    unfold terminalPairCounterEffects at entry
    split at entry <;> cases entry <;> simp_all
  intro record listed
  rcases mem_append.mp (perm.mem_iff.mp listed) with listed | isMerge
  · rcases mem_append.mp listed with isOwn | isDisposed
    · obtain ⟨result, -, pair, sink⟩ := mem_of_forall₂_right ownSides isOwn
      exact ofResult pair sink
    · obtain ⟨disposition, isDisposition, sides⟩ :=
        mem_of_forall₂_right disposedSides isDisposed
      unfold DisposedRecord at sides
      cases fate : disposition.fate with
      | written =>
        rw [fate] at sides
        obtain ⟨result, -, sink, pair⟩ := queued disposition isDisposition
        exact ofResult (sides.1.trans pair) (sides.2.trans sink.symm)
      | failsink | discarded =>
        rw [fate] at sides
        exact countable_of_unrouted sides rfl rfl nofun
  · obtain ⟨pair, -⟩ := isConsumed record isMerge
    exact countable_of_unrouted pair rfl rfl nofun

/-- Sums of weights along corresponding lists. -/
theorem sum_eq_of_forall₂ {α β : Type} {relation : α → β → Prop} {left : α → CounterKey → Nat}
    {right : β → CounterKey → Nat} (same : ∀ first second, relation first second →
      right second = left first) {firsts : List α} {seconds : List β}
    (sides : Forall₂ relation firsts seconds) :
    (seconds.map right).sum = (firsts.map left).sum := by
  induction sides with
  | nil => rfl
  | cons head _ ih => rw [map_cons, map_cons, sum_cons, sum_cons, ih, same _ _ head]

theorem weight_of_diverted (same : record.pair = pair)
    (entry : terminalPairCounterEffects pair = some effect)
    (unrouted : effect.countsRoutedDestination = false)
    (apart : pair ≠ (some .success, .coalesced)) : record.weight = weight pair none := by
  unfold OutcomeRecord.weight
  rw [if_neg (by rw [same]; exact fun both => apart both.1), same, weight_of_effect entry,
    weight_of_effect entry]
  funext key
  cases key with
  | field name => rfl
  | destination name => simp [TerminalPairCounterEffect.weight, unrouted]

/-- The audit adds up the weights of the results and their dispositions. -/
theorem Audits.weights (audits : Audits results dispositions records) :
    (records.map OutcomeRecord.weight).sum =
      resultWeights (results.filter fun result => !result.routed) +
        (dispositions.map Disposition.weight).sum := by
  obtain ⟨own, disposed, consumed, perm, ownSides, disposedSides, isConsumed⟩ := audits
  have ownSum : (own.map OutcomeRecord.weight).sum =
      resultWeights (results.filter fun result => !result.routed) := by
    -- A merged result always goes to a sink, so its own record is none of these.
    have sides : Forall₂ (fun result record => OwnRecord result record ∧ result.routed = false)
        (results.filter fun result => !result.routed) own := by
      refine forall₂_iff_get.mpr ⟨ownSides.length_eq, fun index left right => ?_⟩
      refine ⟨(forall₂_iff_get.mp ownSides).2 index left right, ?_⟩
      have member := get_mem (results.filter fun result => !result.routed) ⟨index, left⟩
      simpa using (mem_filter.mp member).2
    refine sum_eq_of_forall₂ ?_ sides
    rintro result record ⟨⟨pair, sink⟩, unrouted⟩
    unfold OutcomeRecord.weight
    rw [pair, sink, if_neg]
    rintro ⟨merged, -⟩
    simp [routed, routes, merged, terminalPairCounterEffects] at unrouted
  have disposedSum : (disposed.map OutcomeRecord.weight).sum =
      (dispositions.map Disposition.weight).sum := by
    refine sum_eq_of_forall₂ ?_ disposedSides
    intro disposition record sides
    unfold DisposedRecord at sides
    unfold Disposition.weight
    cases fate : disposition.fate with
    | written =>
      rw [fate] at sides
      unfold OutcomeRecord.weight
      rw [sides.1, sides.2, if_neg (by simp)]
    | failsink | discarded =>
      rw [fate] at sides
      exact weight_of_diverted sides rfl rfl nofun
  have consumedSum : (consumed.map OutcomeRecord.weight).sum = 0 := by
    refine sum_eq_zero ?_
    intro each listed
    obtain ⟨record, isRecord, rfl⟩ := mem_map.mp listed
    exact if_pos (isConsumed record isRecord)
  rw [(perm.map OutcomeRecord.weight).sum_eq, map_append, map_append, sum_append,
    sum_append, ownSum, disposedSum, consumedSum, add_zero]

/-- **Live counters equal the audit.**  However results are split into calls and whatever
becomes of the tokens at their sinks, the flush of the sinks succeeds and disposes of one
token for each result that goes to a sink; the counters it leaves are those derived from
the records, and the derivation of a status succeeds. -/
theorem live_counters_equal_audit (computeErrorHash : FailureInfo → String)
    (calls : List (List RowResult)) (sinks : List String) (writer : SinkWriter)
    {counters : ExecutionCounters} {pending : PendingTokenMap}
    (accumulated : accumulateCalls computeErrorHash calls
      (.zero, sinks.map fun sinkName => (sinkName, [])) = .ok (counters, pending)) :
    ∃ flushed dispositions,
      flushAndWriteSinks writer counters pending = .ok (flushed, dispositions) ∧
      (∃ entries, Forall₂ Queues (calls.flatten.filter routed) entries ∧
        (dispositions.map fun disposition => (disposition.sinkName, disposition.token)).Perm
          entries) ∧
      ∀ records, Audits calls.flatten dispositions records →
        ∀ rowsProcessed rowsCoalesceFailed collectorGroupsFailed, ∃ status derived,
          deriveTerminalStatusFromAudit rowsProcessed rowsCoalesceFailed collectorGroupsFailed
              records = .ok (status, derived) ∧
            derived.tally = flushed.tally ∧
            derived.routedDestinations = flushed.routedDestinations := by
  rw [accumulateCalls_eq] at accumulated
  obtain ⟨counted, entries, sides, perm⟩ := accumulateRowOutcomes_ok accumulated
  have empty : queued (sinks.map fun sinkName => (sinkName, [])) = [] := by
    simp [queued]
  rw [empty, append_nil] at perm
  have reconcilable : ∀ entry ∈ pending.queued, Reconcilable entry.2 := by
    intro entry listed
    obtain ⟨result, isResult, -, pair⟩ :=
      mem_of_forall₂_right sides (perm.mem_iff.mp listed)
    have routed := (mem_filter.mp isResult).2
    unfold RowResult.routed at routed
    unfold Reconcilable
    rw [pair]
    cases found : terminalPairCounterEffects result.pair with
    | none =>
      rw [found] at routed
      cases routed
    | some effect =>
      rw [found] at routed
      refine ⟨effect, rfl, ?_⟩
      simp only [any_some, routes, Bool.or_eq_true, Bool.and_eq_true,
        decide_eq_true_eq] at routed
      unfold terminalPairCounterEffects at found
      split at found <;> cases found <;> simp_all
  have covers : counters.at = resultWeights (calls.flatten.filter fun result => !result.routed) +
      queueWeights pending.queued := by
    have queue : queueWeights pending.queued = queueWeights entries := (perm.map _).sum_eq
    rw [counted, queue, queueWeights_of_queues sides, resultWeights_split calls.flatten]
    funext key
    cases key <;> simp [ExecutionCounters.at, ExecutionCounters.zero]
  obtain ⟨flushed, dispositions, ran, tokens, total⟩ :=
    flushAndWriteSinks_ok writer reconcilable covers
  refine ⟨flushed, dispositions, ran, ⟨entries, sides, tokens.trans perm⟩, ?_⟩
  intro records audits rowsProcessed rowsCoalesceFailed collectorGroupsFailed
  have queued : ∀ disposition ∈ dispositions, ∃ result ∈ calls.flatten, Queues result
      (disposition.sinkName, disposition.token) := by
    intro disposition listed
    have inQueue := (tokens.trans perm).mem_iff.mp
      (mem_map.mpr ⟨disposition, listed, rfl⟩)
    obtain ⟨result, isResult, queues⟩ := mem_of_forall₂_right sides inQueue
    exact ⟨result, mem_of_mem_filter isResult, queues⟩
  obtain ⟨derived, derives, sum⟩ := deriveRecords_ok (audits.countable queued)
    { zero with rowsCoalesceFailed }
  have same : derived.at = flushed.at := by
    rw [sum, audits.weights, total]
    funext key
    cases key <;> simp [ExecutionCounters.at, ExecutionCounters.zero]
  obtain ⟨routedSuccess, routedFailure, quarantined⟩ := recordWeights_subset records
  have tallies (field : CounterField) :
      derived.tally field = (records.map OutcomeRecord.weight).sum (.field field) := by
    have here := congrFun sum (.field field)
    simpa [ExecutionCounters.at, ExecutionCounters.zero] using here
  obtain ⟨status, decided⟩ : ∃ status, deriveTerminalRunStatus rowsProcessed derived.tally
      rowsCoalesceFailed collectorGroupsFailed = .ok status := by
    unfold deriveTerminalRunStatus
    rw [if_neg (by rw [tallies, tallies]; omega), if_neg (by rw [tallies, tallies]; omega),
      if_neg (by rw [tallies, tallies]; omega)]
    simp only
    split
    · exact ⟨_, rfl⟩
    · split
      · exact ⟨_, rfl⟩
      · split
        · exact ⟨_, rfl⟩
        · split <;> exact ⟨_, rfl⟩
  refine ⟨status, derived, ?_, ?_, ?_⟩
  · unfold deriveTerminalStatusFromAudit
    simp only [derives, bind, Except.bind, decided]
    rfl
  · funext field
    exact congrFun same (.field field)
  · funext sinkName
    exact congrFun same (.destination sinkName)

/-- A row for a sink. -/
def Worked.result : RowResult where
  tokenId := "token"
  outcome := some .success
  path := .gateRouted
  sinkName := some "out"
  error := none
  schedulerPendingSink := true
  authoritativeErrorHash := none
  joinGroupId := none
  countsFailedBarrier := false
  legal := by decide
  sinkBound := nofun
  unbound := nofun
  failed := nofun
  quarantined := nofun
  merged := by decide
  barrier := nofun

/-- A sink that discards what it is given. -/
def Worked.writer : SinkWriter where
  write := fun _ batch => batch.map fun _ => .discarded
  length_write := fun _ _ => length_map ..

def Worked.accumulated : Except InvariantFault (ExecutionCounters × PendingTokenMap) :=
  accumulateCalls (fun _ => "") [[Worked.result], []]
    (.zero, ["out"].map fun sinkName => (sinkName, []))

/-- A discarded row is a failed one, to the counters and to the audit. -/
theorem live_counters_equal_audit_discarded :
    ∃ counters pending, Worked.accumulated = .ok (counters, pending) ∧
    ∃ flushed dispositions,
      flushAndWriteSinks Worked.writer counters pending = .ok (flushed, dispositions) ∧
      (∃ entries, Forall₂ Queues ([Worked.result].filter routed) entries ∧
        (dispositions.map fun disposition => (disposition.sinkName, disposition.token)).Perm
          entries) ∧
      ∀ records, Audits [Worked.result] dispositions records →
        ∀ rowsProcessed rowsCoalesceFailed collectorGroupsFailed, ∃ status derived,
          deriveTerminalStatusFromAudit rowsProcessed rowsCoalesceFailed collectorGroupsFailed
              records = .ok (status, derived) ∧
            derived.tally = flushed.tally ∧
            derived.routedDestinations = flushed.routedDestinations :=
  ⟨_, _, rfl, live_counters_equal_audit (fun _ => "") [[Worked.result], []] ["out"]
    Worked.writer rfl⟩

end Elspeth.Orchestrator
