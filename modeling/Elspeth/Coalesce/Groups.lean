import Elspeth.Coalesce.Sound
import Mathlib.Order.ConditionallyCompleteLattice.Basic

/-!
# Coalesce groups resolve once

A history is what a leader asked of its executor and what it was answered.  As long as
the executor can still tell that a group has closed whenever that group is asked about
again, a group merges or fails at most once, and every token that arrived is accounted
for by exactly one outcome.
-/

namespace Elspeth.Coalesce

open Collections Lineage CoalesceOutcome Call List Option Executor

variable {Row : Type}

/-! ## Histories -/

/-- The calls made so far, oldest first, each with its answer. -/
abbrev History (Row : Type) : Type := List (Call Row × List (CoalesceOutcome Row))

section

variable (outcome : CoalesceOutcome Row)

/-- A verdict that closes a group, rather than holding or rejecting a token. -/
def CoalesceOutcome.resolves : Bool :=
  match outcome.verdict with
  | .merged .. => true
  | .failed .. => true
  | .held => false
  | .late .. => false

def CoalesceOutcome.isHeld : Bool :=
  match outcome.verdict with
  | .held => true
  | _ => false

def CoalesceOutcome.isLate : Bool :=
  match outcome.verdict with
  | .late .. => true
  | _ => false

end

/-- The token a call brings to a group. -/
def Call.arrival (key : Key) : Call Row → Option (Token Row)
  | .accept token name _ =>
    if token.forkGroupId.map (name, ·) = some key then some token else none
  | _ => none

/-- The branch a call reports lost to a group. -/
def Call.loss (key : Key) : Call Row → Option String
  | .notifyBranchLost name groupId branch _ _ => if (name, groupId) = key then some branch else none
  | _ => none

namespace History

variable (history : History Row)

/-- The tokens that came to a group. -/
def arrivedAt (key : Key) : List (Token Row) :=
  history.filterMap fun step => step.1.arrival key

/-- The branches reported lost to a group. -/
def lostAt (key : Key) : List String :=
  history.filterMap fun step => step.1.loss key

/-- The outcomes of a group, apart from those that only hold a token. -/
def settledAt (key : Key) : List (CoalesceOutcome Row) :=
  (history.flatMap Prod.snd).filter fun outcome => outcome.key = key && !outcome.isHeld

/-- The branches reported so far, as arrived or as lost. -/
def members : List (Key × String) :=
  history.filterMap fun step => step.1.member

/-- The group has merged or failed. -/
def Resolved (key : Key) : Prop :=
  ∃ outcome ∈ history.settledAt key, outcome.resolves = true

end History

/-- The call names registered coalesces and branches of theirs. -/
def Call.Expected (env : Environment Row) : Call Row → Prop
  | .accept token name _ => ∃ settings branch groupId, env.settings name = some settings ∧
      token.branchName = some branch ∧ branch ∈ settings.branches ∧
      token.forkGroupId = some groupId
  | .notifyBranchLost name _ branch _ _ => ∃ settings, env.settings name = some settings ∧
      branch ∈ settings.branches
  | .checkTimeouts name _ => ∃ settings, env.settings name = some settings
  | .flushPending => True

/-- The branch is reported for the first time: it arrives once, or is lost once. -/
def Call.Fresh (history : History Row) (call : Call Row) : Prop :=
  ∀ member, call.member = some member → member ∉ history.members

/-- A condition on a call, given what was asked before and the executor it meets. -/
abbrev Condition (Row : Type) : Type := History Row → Executor Row → Call Row → Prop

/-- The histories of an executor whose calls meet a condition. -/
inductive Runs (env : Environment Row) (condition : Condition Row) : History Row → Executor Row →
    Prop
  | initial : Runs env condition [] .initial
  | call {history executor call outcomes next} (before : Runs env condition history executor)
      (meets : condition history executor call)
      (ran : call.run env executor = .ok (outcomes, next)) :
      Runs env condition (history ++ [(call, outcomes)]) next

/-- Each branch of a group arrives once or is reported lost once. -/
def Reports (env : Environment Row) : Condition Row := fun history _ call =>
  call.Expected env ∧ call.Fresh history

/-- A call about a group that has closed finds it in memory or in the Landscape. -/
def Recalls : Condition Row := fun history executor call =>
  ∀ member, call.member = some member → history.Resolved member.1 → executor.Remembers member.1

/-! ## One group -/

namespace History

variable (history : History Row) (call : Call Row) (outcomes : List (CoalesceOutcome Row))
    (key : Key)

theorem arrivedAt_append : (history ++ [(call, outcomes)]).arrivedAt key =
    history.arrivedAt key ++ (call.arrival key).toList := by
  unfold arrivedAt
  cases found : call.arrival key <;> simp [found]

theorem lostAt_append : (history ++ [(call, outcomes)]).lostAt key =
    history.lostAt key ++ (call.loss key).toList := by
  unfold lostAt
  cases found : call.loss key <;> simp [found]

theorem settledAt_append : (history ++ [(call, outcomes)]).settledAt key =
    history.settledAt key ++
      outcomes.filter fun outcome => outcome.key = key && !outcome.isHeld := by
  unfold settledAt
  simp

end History

namespace History

variable {history : History Row} {key : Key}

variable {branch : String}

theorem mem_members_of_arrived {token : Token Row} (arrived : token ∈ history.arrivedAt key)
    (named : token.branchName = some branch) : (key, branch) ∈ history.members := by
  obtain ⟨⟨call, answer⟩, listed, brings⟩ := mem_filterMap.mp arrived
  refine mem_filterMap.mpr ⟨(call, answer), listed, ?_⟩
  cases call with
  | accept =>
    simp only [arrival, ite_none_right_eq_some, some.injEq] at brings
    obtain ⟨grouped, rfl⟩ := brings
    obtain ⟨groupId, group, same⟩ := map_eq_some_iff.mp grouped
    simp only [member, group, named]
    exact congrArg (fun key => some (key, branch)) same
  | _ => cases brings

theorem mem_members_of_lost (lost : branch ∈ history.lostAt key) :
    (key, branch) ∈ history.members := by
  obtain ⟨⟨call, answer⟩, listed, reports⟩ := mem_filterMap.mp lost
  refine mem_filterMap.mpr ⟨(call, answer), listed, ?_⟩
  cases call with
  | notifyBranchLost =>
    simp only [loss, ite_none_right_eq_some, some.injEq] at reports
    obtain ⟨rfl, rfl⟩ := reports
    rfl
  | _ => cases reports

end History

/-- What has become of a group: the history of its members against the executor. -/
inductive Group (env : Environment Row) (history : History Row) (key : Key) :
    Option (PendingCoalesce Row) → Prop
  /-- Nothing was reported to the group. -/
  | untouched (arrived : history.arrivedAt key = []) (lost : history.lostAt key = [])
      (settled : history.settledAt key = []) : Group env history key none
  | waiting {pending : PendingCoalesce Row} (arrived : history.arrivedAt key = pending.tokens)
      (lost : history.lostAt key = pending.lostBranches.keys)
      (settled : history.settledAt key = []) : Group env history key (some pending)
  /-- The first outcome closed the group; everything after it came late. -/
  | closed {settings : CoalesceSettings} {tokens : List (Token Row)}
      {closing : CoalesceOutcome Row} {late : List (CoalesceOutcome Row)}
      (settled : history.settledAt key = closing :: late)
      (registered : env.settings key.1 = some settings)
      (closes : Executor.Closes settings key tokens closing)
      (all_late : ∀ outcome ∈ late, outcome.isLate = true)
      (arrived : history.arrivedAt key =
        tokens ++ late.flatMap consumedTokens) :
      Group env history key none

section Verdicts

variable {outcome : CoalesceOutcome Row}

theorem Closes.resolves {settings : CoalesceSettings} {key : Key} {tokens : List (Token Row)}
    (closes : Executor.Closes settings key tokens outcome) :
    outcome.resolves = true ∧ outcome.consumedTokens.Perm tokens := by
  obtain ⟨-, verdict⟩ := closes
  unfold CoalesceOutcome.resolves CoalesceOutcome.consumedTokens
  cases found : outcome.verdict with
  | held | late => simp [found] at verdict
  | merged =>
    simp only [found] at verdict
    exact ⟨rfl, verdict.1⟩
  | failed =>
    simp only [found] at verdict
    exact ⟨rfl, .of_eq verdict⟩

theorem unheld_of_resolves (resolves : outcome.resolves = true) : outcome.isHeld = false := by
  unfold CoalesceOutcome.resolves at resolves
  unfold isHeld
  split at resolves <;> simp_all

theorem unheld_of_late (late : outcome.isLate = true) :
    outcome.isHeld = false ∧ outcome.resolves = false := by
  unfold isLate at late
  unfold isHeld CoalesceOutcome.resolves
  split at late <;> simp_all

end Verdicts

section Steps

variable {env : Environment Row} {history : History Row} {key : Key}
  {pending : Option (PendingCoalesce Row)} {call : Call Row}
  {outcomes : List (CoalesceOutcome Row)}

/-- A group has resolved if it had before, or does by this call. -/
theorem History.resolved_append : (history ++ [(call, outcomes)]).Resolved key ↔
    history.Resolved key ∨ ∃ outcome ∈ outcomes, outcome.key = key ∧ outcome.resolves = true := by
  unfold Resolved
  simp only [settledAt_append, mem_append, or_and_right, exists_or, mem_filter, Bool.and_eq_true,
    decide_eq_true_eq, Bool.not_eq_true', and_assoc]
  refine or_congr_right (exists_congr fun outcome => and_congr_right fun _ =>
    and_congr_right fun _ => and_iff_right_of_imp unheld_of_resolves)

section

variable (group : Group env history key pending)
include group

/-- A group that has not closed is pending, or nothing was reported to it. -/
theorem Group.of_open (open_ : ¬history.Resolved key) (now : Int) :
    history.settledAt key = [] ∧
      history.arrivedAt key = (pending.getD ⟨.empty, now, .empty⟩).tokens ∧
      history.lostAt key = (pending.getD ⟨.empty, now, .empty⟩).lostBranches.keys := by
  cases group with
  | untouched arrived lost settled | waiting arrived lost settled =>
    exact ⟨settled, arrived, lost⟩
  | closed settled _ closes =>
    exact absurd ⟨_, settled ▸ mem_cons_self, (Closes.resolves closes).1⟩ open_

/-- A call that says nothing of a group leaves it as it was. -/
theorem Group.frame (silent : call.arrival key = none ∧ call.loss key = none)
    (elsewhere : ∀ outcome ∈ outcomes, outcome.key ≠ key) :
    Group env (history ++ [(call, outcomes)]) key pending := by
  have arrived : (history ++ [(call, outcomes)]).arrivedAt key = history.arrivedAt key := by
    rw [History.arrivedAt_append, silent.1, toList_none, append_nil]
  have lost : (history ++ [(call, outcomes)]).lostAt key = history.lostAt key := by
    rw [History.lostAt_append, silent.2, toList_none, append_nil]
  have settled : (history ++ [(call, outcomes)]).settledAt key = history.settledAt key := by
    rw [History.settledAt_append, filter_eq_nil_iff.mpr, append_nil]
    intro outcome listed
    simp [elsewhere outcome listed]
  cases group with
  | untouched arrived' lost' settled' =>
    exact .untouched (arrived.trans arrived') (lost.trans lost') (settled.trans settled')
  | waiting arrived' lost' settled' =>
    exact .waiting (arrived.trans arrived') (lost.trans lost') (settled.trans settled')
  | closed settled' registered closes all_late arrived' =>
    exact .closed (settled.trans settled') registered closes all_late (arrived.trans arrived')

end

/-- A call about an open group closes it. -/
theorem Group.close {settings : CoalesceSettings} {tokens : List (Token Row)}
    {closing : CoalesceOutcome Row} (settled : history.settledAt key = [])
    (arrived : history.arrivedAt key ++ (call.arrival key).toList = tokens)
    (registered : env.settings key.1 = some settings)
    (closes : Executor.Closes settings key tokens closing)
    (only : (outcomes.filter fun outcome => outcome.key = key && !outcome.isHeld) = [closing]) :
    Group env (history ++ [(call, outcomes)]) key none := by
  have first : (history ++ [(call, outcomes)]).settledAt key = [closing] := by
    rw [History.settledAt_append, settled, nil_append, only]
  refine .closed first registered closes nofun ?_
  rw [History.arrivedAt_append, arrived, flatMap_nil, append_nil]

/-- A call about a closed group brings at most a late token. -/
theorem Group.linger (group : Group env history key none) (resolved : history.Resolved key)
    (late : ∀ outcome ∈ outcomes, outcome.key = key ∧ outcome.isLate = true)
    (tokens : outcomes.flatMap consumedTokens = (call.arrival key).toList) :
    Group env (history ++ [(call, outcomes)]) key none := by
  cases group with
  | untouched _ _ settled =>
    obtain ⟨outcome, listed, -⟩ := resolved
    rw [settled] at listed
    cases listed
  | @closed _ _ closing earlier settled registered closes all_late arrived =>
    have more : (history ++ [(call, outcomes)]).settledAt key =
        closing :: (earlier ++ outcomes) := by
      rw [History.settledAt_append, settled, filter_eq_self.mpr, cons_append]
      intro outcome listed
      simp [late outcome listed, unheld_of_late (late outcome listed).2]
    refine .closed more registered closes ?_ ?_
    · intro outcome listed
      exact (mem_append.mp listed).elim (all_late outcome) fun new => (late outcome new).2
    · rw [History.arrivedAt_append, arrived, flatMap_append, tokens, append_assoc]

end Steps

/-! ## Histories -/

/-- The executor and the history of its calls agree on every group. -/
structure Accounts (env : Environment Row) (history : History Row) (executor : Executor Row) :
    Prop where
  sound : Executor.Sound env history.Resolved executor
  groups : ∀ key, Group env history key (executor.pending.get key)
  distinct : ∀ key, (history.arrivedAt key).Nodup
  apart : ∀ key, ∀ token ∈ history.arrivedAt key, ∀ branch, token.branchName = some branch →
    branch ∉ history.lostAt key

theorem Accounts.initial {env : Environment Row} : Accounts env [] .initial where
  sound := .initial
  groups := fun _ => .untouched rfl rfl rfl
  distinct := fun _ => nodup_nil
  apart := nofun

section Step

variable {env : Environment Row} {history : History Row} {executor next : Executor Row}
  {call : Call Row} {outcomes : List (CoalesceOutcome Row)} {key : Key} {token : Token Row}
  {name groupId branch : String} {now : Int} {keys : List Key} {settings : CoalesceSettings}

theorem arrival_of_expected (grouped : token.forkGroupId = some groupId) (key : Key) :
    (accept token name now).arrival key = if (name, groupId) = key then some token else none := by
  simp [arrival, grouped]

section

variable (accounts : Accounts env history executor)
include accounts

/-- A branch that was not reported before is none of a pending group's members. -/
theorem Accounts.not_waiting (registered : env.settings key.1 = some settings)
    (open_ : ¬history.Resolved key) (new : (key, branch) ∉ history.members) (now : Int) :
    branch ∉ (executor.waitingFor key now).branches.keys ∧
      branch ∉ (executor.waitingFor key now).lostBranches.keys := by
  have joined := accounts.sound.joins_waitingFor registered now
  obtain ⟨-, arrived, lost⟩ := (accounts.groups key).of_open open_ now
  constructor
  · intro listed
    obtain ⟨entry, found⟩ := Dict.mem_keys.mp listed
    have token : entry.token ∈ history.arrivedAt key :=
      arrived ▸ mem_map_of_mem (Dict.mem_values.mpr ⟨branch, found⟩)
    exact new (History.mem_members_of_arrived token (joined.arrived branch entry found).2.1)
  · intro listed
    have reported : branch ∈ history.lostAt key := lost ▸ listed
    exact new (History.mem_members_of_lost reported)

variable (expected : call.Expected env) (fresh : call.Fresh history)
include expected fresh

theorem distinct_append (key : Key) :
    ((history ++ [(call, outcomes)]).arrivedAt key).Nodup := by
  rw [History.arrivedAt_append]
  cases brings : call.arrival key with
  | none => simpa using accounts.distinct key
  | some =>
    refine (accounts.distinct key).append (nodup_singleton _) ?_
    refine disjoint_singleton.mpr fun before => ?_
    cases call with
    | accept other name now =>
      obtain ⟨settings, branch, groupId, -, named, -, grouped⟩ := expected
      rw [arrival_of_expected grouped] at brings
      obtain ⟨rfl, same⟩ := ite_none_right_eq_some.mp brings
      cases same
      exact fresh ((name, groupId), branch) (by simp [member, grouped, named])
        (History.mem_members_of_arrived before named)
    | _ => cases brings

theorem apart_append (key : Key) :
    ∀ token ∈ (history ++ [(call, outcomes)]).arrivedAt key, ∀ branch,
      token.branchName = some branch → branch ∉ (history ++ [(call, outcomes)]).lostAt key := by
  intro token arrived branch named lost
  rw [History.arrivedAt_append, mem_append] at arrived
  rw [History.lostAt_append, mem_append] at lost
  cases call with
  | accept other name now =>
    have before : branch ∈ history.lostAt key := lost.elim id nofun
    rcases arrived with arrived | added
    · exact accounts.apart key token arrived branch named before
    · obtain ⟨settings, otherBranch, groupId, -, otherNamed, -, grouped⟩ := expected
      rw [arrival_of_expected grouped, mem_toList, ite_none_right_eq_some] at added
      obtain ⟨rfl, same⟩ := added
      cases same
      exact fresh ((name, groupId), branch) (by simp [member, grouped, named])
        (History.mem_members_of_lost before)
  | notifyBranchLost name groupId other reason now =>
    have before : token ∈ history.arrivedAt key := arrived.elim id nofun
    rcases lost with lost | added
    · exact accounts.apart key token before branch named lost
    · simp only [loss, mem_toList, ite_none_right_eq_some,
        some.injEq] at added
      obtain ⟨rfl, rfl⟩ := added
      exact fresh ((name, groupId), other) rfl (History.mem_members_of_arrived before named)
  | checkTimeouts | flushPending =>
    exact accounts.apart key token (arrived.elim id nofun) branch named (lost.elim id nofun)

variable (about : ∀ other, other ≠ key → call.arrival other = none ∧ call.loss other = none)
include about

/-- A call about one group keeps the accounts of all, if it does of that one. -/
theorem Accounts.affected {closed : Key → Prop} {left : Option (PendingCoalesce Row)}
    (affects : Executor.Affects env closed executor key left next)
    (resolved : ∀ other, closed other ↔ (history ++ [(call, outcomes)]).Resolved other)
    (only : ∀ outcome ∈ outcomes, outcome.key = key)
    (group : Group env (history ++ [(call, outcomes)]) key left) :
    Accounts env (history ++ [(call, outcomes)]) next where
  sound := (funext fun other => propext (resolved other) : closed = _) ▸ affects.sound
  groups := by
    intro other
    rw [affects.gets]
    split
    next here => exact here ▸ group
    next apart =>
      refine (accounts.groups other).frame (about other apart) ?_
      intro outcome listed same
      exact apart (same ▸ only outcome listed)
  distinct := distinct_append accounts expected fresh
  apart := apart_append accounts expected fresh

/-- A call about a closed group brings at most a late token. -/
theorem Accounts.linger (resolved : history.Resolved key)
    (sound : Executor.Sound env history.Resolved next) (pending : next.pending = executor.pending)
    (late : ∀ outcome ∈ outcomes, outcome.key = key ∧ outcome.isLate = true)
    (tokens : outcomes.flatMap consumedTokens = (call.arrival key).toList) :
    Accounts env (history ++ [(call, outcomes)]) next := by
  have gone := accounts.sound.shut key resolved
  refine accounts.affected expected fresh about ⟨sound, fun other => ?_⟩ (fun other => ?_)
    (fun outcome listed => (late outcome listed).1)
    ((gone ▸ accounts.groups key).linger resolved late tokens)
  · rw [pending]
    split
    next here => rw [here, gone]
    · rfl
  · rw [History.resolved_append, or_iff_left]
    rintro ⟨outcome, listed, -, resolves⟩
    rw [(unheld_of_late (late outcome listed).2).2] at resolves
    cases resolves

/-- A report to an open group is accounted for. -/
theorem Accounts.move {waiting : PendingCoalesce Row}
    (registered : env.settings key.1 = some settings) (open_ : ¬history.Resolved key)
    (arrived : history.arrivedAt key ++ (call.arrival key).toList = waiting.tokens)
    (lost : history.lostAt key ++ (call.loss key).toList = waiting.lostBranches.keys)
    (moves : Executor.Moves env history.Resolved executor settings key waiting outcomes next) :
    Accounts env (history ++ [(call, outcomes)]) next := by
  obtain ⟨settled, -⟩ := (accounts.groups key).of_open open_ 0
  cases moves with
  | waits held affects =>
    refine accounts.affected expected fresh about affects (fun other => ?_)
      (fun outcome listed => by rw [held outcome listed]) ?_
    · rw [History.resolved_append, or_iff_left]
      rintro ⟨outcome, listed, -, resolves⟩
      rw [held outcome listed] at resolves
      cases resolves
    · refine .waiting ((History.arrivedAt_append ..).trans arrived)
        ((History.lostAt_append ..).trans lost) ?_
      rw [History.settledAt_append, settled, nil_append, filter_eq_nil_iff]
      intro outcome listed
      simp [held outcome listed, isHeld]
  | closes closes affects =>
    obtain ⟨resolves, -⟩ := Closes.resolves closes
    refine accounts.affected expected fresh about affects (fun other => ?_) (by simp [closes.1])
      (.close settled arrived registered closes (by simp [closes.1, unheld_of_resolves resolves]))
    rw [History.resolved_append]
    simp [closes.1, resolves, @eq_comm _ other]

end

/-- An arrival keeps the accounts, or raises what planning a merge raised. -/
theorem Accounts.accept (accounts : Accounts env history executor)
    (expected : (accept token name now).Expected env)
    (fresh : (accept token name now).Fresh history)
    (recalls : Recalls history executor (.accept token name now)) :
    Returns (fun outcomes => Accounts env (history ++ [(.accept token name now, outcomes)]))
      ((accept token name now).run env executor) := by
  obtain ⟨settings, branch, groupId, registered, named, declared, grouped⟩ := id expected
  have member : (Call.accept token name now).member = some ((name, groupId), branch) := by
    simp [member, grouped, named]
  have brings : (Call.accept token name now).arrival (name, groupId) = some token := by
    rw [arrival_of_expected grouped, if_pos rfl]
  have about (other : Key) (apart : other ≠ (name, groupId)) :
      (Call.accept token name now).arrival other = none ∧
        (Call.accept token name now).loss other = none := by
    rw [arrival_of_expected grouped, if_neg (Ne.symm apart)]
    exact ⟨rfl, rfl⟩
  simp only [run]
  by_cases resolved : history.Resolved (name, groupId)
  · obtain ⟨reason, evidence, next, ran, sound, pending⟩ := accept_late accounts.sound registered
      named declared grouped now (recalls _ member resolved)
    rw [ran]
    exact accounts.linger expected fresh about resolved sound pending (by simp [isLate])
      (by simp [consumedTokens, brings])
  · obtain ⟨new, -⟩ := accounts.not_waiting registered resolved (fresh _ member) now
    obtain ⟨-, arrived, lost⟩ := (accounts.groups (name, groupId)).of_open resolved now
    have forgotten := mt accounts.sound.closed_of_remembers resolved
    rw [accept_eq registered named declared grouped, checkCompletion_eq_none.mpr forgotten]
    refine (acceptHeld_spec accounts.sound registered declared named grouped new resolved).map
      ([·]) fun outcome next => accounts.move expected fresh about registered resolved ?_ ?_
    · rw [brings, arrived]
      unfold arriving PendingCoalesce.tokens PendingCoalesce.arrive
      rw [Dict.values_set_of_notMem new, map_append]
      rfl
    · exact (append_nil _).trans lost

/-- A reported loss keeps the accounts, or raises what planning a merge raised. -/
theorem Accounts.notifyBranchLost (accounts : Accounts env history executor) {reason : String}
    (expected : (notifyBranchLost name groupId branch reason now : Call Row).Expected env)
    (fresh : (notifyBranchLost name groupId branch reason now).Fresh history)
    (recalls : Recalls history executor (.notifyBranchLost name groupId branch reason now)) :
    Returns (fun outcomes => Accounts env
        (history ++ [(.notifyBranchLost name groupId branch reason now, outcomes)]))
      ((notifyBranchLost name groupId branch reason now).run env executor) := by
  obtain ⟨settings, registered, declared⟩ := id expected
  have about (other : Key) (apart : other ≠ (name, groupId)) :
      (Call.notifyBranchLost name groupId branch reason now : Call Row).arrival other = none ∧
      (Call.notifyBranchLost name groupId branch reason now : Call Row).loss other = none :=
    ⟨rfl, if_neg (Ne.symm apart)⟩
  simp only [run]
  by_cases resolved : history.Resolved (name, groupId)
  · obtain ⟨next, ran, sound, pending⟩ := notifyBranchLost_closed accounts.sound registered branch
      reason now (recalls _ rfl resolved)
    rw [ran]
    exact accounts.linger expected fresh about resolved sound pending (by simp) (by simp [arrival])
  · obtain ⟨unarrived, new⟩ := accounts.not_waiting registered resolved (fresh _ rfl) now
    obtain ⟨-, arrived, lost⟩ := (accounts.groups (name, groupId)).of_open resolved now
    have forgotten := mt accounts.sound.closed_of_remembers resolved
    rw [notifyBranchLost_eq registered declared reason now forgotten, if_neg unarrived, if_neg new]
    refine (evaluateAfterLoss_spec accounts.sound registered declared reason resolved).map
      toList fun outcome next => accounts.move expected fresh about registered resolved ?_ ?_
    · exact (append_nil _).trans arrived
    · rw [lost]
      exact (congrArg _ (by simp [loss])).trans (Dict.keys_set_of_notMem new _).symm

/-- Closing several groups leaves one outcome for each. -/
theorem filter_of_closes {closings : List (CoalesceOutcome Row)}
    {closes : Key → CoalesceOutcome Row → Prop} (all : Forall₂ closes keys closings)
    (named : ∀ key outcome, closes key outcome → outcome.key = key ∧ outcome.isHeld = false)
    (distinct : keys.Nodup) (listed : key ∈ keys) :
    ∃ closing, closes key closing ∧
      (closings.filter fun outcome => outcome.key = key && !outcome.isHeld) = [closing] := by
  induction all with
  | nil => cases listed
  | @cons first outcome rest outcomes head tail ih =>
    obtain ⟨apart, distinct⟩ := nodup_cons.mp distinct
    obtain ⟨here, unheld⟩ := named first outcome head
    rcases mem_cons.mp listed with rfl | later
    · refine ⟨outcome, head, ?_⟩
      have others : (outcomes.filter fun outcome => outcome.key = key && !outcome.isHeld) = [] := by
        refine filter_eq_nil_iff.mpr fun other isOther => ?_
        obtain ⟨otherKey, isKey, sides⟩ := Relational.mem_of_forall₂_right tail isOther
        have same := (named otherKey other sides).1
        have elsewhere : other.key ≠ key := fun same' => apart (same' ▸ same ▸ isKey)
        simp [elsewhere]
      rw [filter_cons_of_pos (by simp [here, unheld]), others]
    · obtain ⟨closing, closes, only⟩ := ih distinct later
      refine ⟨closing, closes, ?_⟩
      have elsewhere : outcome.key ≠ key := fun same => apart (here ▸ same ▸ later)
      rw [filter_cons_of_neg (by simp [elsewhere]), only]

section

variable (accounts : Accounts env history executor)
include accounts

/-- Closing pending groups keeps the accounts. -/
theorem Accounts.resolveAll (silent : ∀ key, call.arrival key = none ∧ call.loss key = none)
    (distinct : keys.Nodup) (all : Forall₂ (Resolves env executor) keys outcomes)
    (sound : Executor.Sound env (fun other => history.Resolved other ∨ other ∈ keys) next)
    (gets : ∀ other, next.pending.get other =
      if other ∈ keys then none else executor.pending.get other) :
    Accounts env (history ++ [(call, outcomes)]) next := by
  have named : ∀ key outcome, Resolves env executor key outcome →
      outcome.key = key ∧ outcome.resolves = true := by
    rintro key outcome ⟨_, _, _, _, closes⟩
    exact ⟨closes.1, (Closes.resolves closes).1⟩
  have resolved (other : Key) : (history.Resolved other ∨ other ∈ keys) ↔
      (history ++ [(call, outcomes)]).Resolved other := by
    rw [History.resolved_append]
    refine or_congr_right ⟨fun listed => ?_, ?_⟩
    · obtain ⟨outcome, isOutcome, sides⟩ := Relational.mem_of_forall₂_left all listed
      exact ⟨outcome, isOutcome, named other outcome sides⟩
    · rintro ⟨outcome, isOutcome, rfl, -⟩
      obtain ⟨key, listed, sides⟩ := Relational.mem_of_forall₂_right all isOutcome
      exact (named key outcome sides).1 ▸ listed
  have arrived (key : Key) :
      (history ++ [(call, outcomes)]).arrivedAt key = history.arrivedAt key := by
    rw [History.arrivedAt_append, (silent key).1, toList_none, append_nil]
  have lost (key : Key) : (history ++ [(call, outcomes)]).lostAt key = history.lostAt key := by
    rw [History.lostAt_append, (silent key).2, toList_none, append_nil]
  refine ⟨(funext fun other => propext (resolved other) : (fun _ => _) = _) ▸ sound, ?_,
    fun key => arrived key ▸ accounts.distinct key, fun key => ?_⟩
  · intro key
    rw [gets]
    split
    next listed =>
      obtain ⟨closing, ⟨settings, pending, registered, found, closes⟩, only⟩ := filter_of_closes all
        (fun key outcome sides => (named key outcome sides).imp_right unheld_of_resolves)
        distinct listed
      have group := accounts.groups key
      rw [found] at group
      cases group with
      | waiting arrived' _ settled =>
        refine .close settled ?_ registered closes only
        rw [(silent key).1, toList_none, append_nil, arrived']
    next unlisted =>
      refine (accounts.groups key).frame (silent key) ?_
      rintro outcome isOutcome rfl
      obtain ⟨key, listed, sides⟩ := Relational.mem_of_forall₂_right all isOutcome
      exact unlisted ((named key outcome sides).1 ▸ listed)
  · rw [arrived, lost]
    exact accounts.apart key

theorem Accounts.checkTimeouts (expected : (checkTimeouts name now : Call Row).Expected env) :
    Returns (fun outcomes => Accounts env (history ++ [(.checkTimeouts name now, outcomes)]))
      ((checkTimeouts name now).run env executor) := by
  obtain ⟨settings, registered⟩ := expected
  simp only [run, Executor.checkTimeouts, registered]
  cases settings.timeoutSeconds with
  | none =>
    exact accounts.resolveAll (fun _ => ⟨rfl, rfl⟩) nodup_nil .nil (by simpa using accounts.sound)
      (by simp)
  | some timeout =>
    have entries : ∀ key ∈ executor.timedOut name timeout now,
        key ∈ executor.pending.keys ∧ key.1 = name := by
      intro key listed
      obtain ⟨⟨_, pending⟩, isEntry, rfl⟩ := mem_map.mp listed
      obtain ⟨inside, due⟩ := mem_filter.mp isEntry
      exact ⟨mem_map.mpr ⟨_, inside, rfl⟩, (of_decide_eq_true due).1⟩
    have distinct : (executor.timedOut name timeout now).Nodup :=
      executor.pending.nodup.sublist (filter_sublist.map _)
    refine (Executor.resolveAll_spec (fun closed other sound key listed pending found =>
      Executor.timeOut_spec sound ((entries key listed).2 ▸ registered) found) distinct
      accounts.sound fun key listed => (entries key listed).1).mono ?_
    rintro outcomes next ⟨all, sound, gets⟩
    exact accounts.resolveAll (fun _ => ⟨rfl, rfl⟩) distinct all sound gets

theorem Accounts.flushPending :
    Returns (fun outcomes next => Accounts env (history ++ [(.flushPending, outcomes)]) next ∧
        ∀ key, next.pending.get key = none)
      ((flushPending : Call Row).run env executor) := by
  have flushed := Executor.resolveAll_spec (fun closed other sound key _ pending found =>
    Executor.flushKey_spec sound found) executor.pending.nodup_keys accounts.sound fun _ => id
  simp only [run, Executor.flushPending]
  cases ran : Executor.resolveAll (flushKey env) executor.pending.keys executor with
  | error =>
    rw [ran] at flushed
    exact flushed
  | ok result =>
    rw [ran] at flushed
    obtain ⟨all, sound, gets⟩ := flushed
    -- A flush also clears the closed groups, so that the executor knows less than before.
    refine ⟨accounts.resolveAll (fun _ => ⟨rfl, rfl⟩) executor.pending.nodup_keys all
      { sound with
        fits := fun _ _ => Nat.zero_le _
        known := by simp
        unseen := by simp
        evidence := by simp } gets, fun key => ?_⟩
    rw [gets key]
    split
    · rfl
    · exact Dict.get_eq_none.mpr (by assumption)

/-- Every recalled call keeps the accounts, or raises what planning a merge raised. -/
theorem Accounts.step (expected : call.Expected env) (fresh : call.Fresh history)
    (recalls : Recalls history executor call) :
    Returns (fun outcomes => Accounts env (history ++ [(call, outcomes)]))
      (call.run env executor) := by
  cases call with
  | accept => exact accounts.accept expected fresh recalls
  | notifyBranchLost => exact accounts.notifyBranchLost expected fresh recalls
  | checkTimeouts => exact accounts.checkTimeouts expected
  | flushPending => exact accounts.flushPending.mono fun _ _ => And.left

end

theorem Accounts.of_runs (runs : Runs env (Reports env ⊓ Recalls) history executor) :
    Accounts env history executor := by
  induction runs with
  | initial => exact .initial
  | call before meets ran ih =>
    have kept := ih.step meets.1.1 meets.1.2 meets.2
    rw [ran] at kept
    exact kept

end Step

/-! ## Resolving once -/

/-- What a history says of its groups. -/
structure ResolvesOnce (env : Environment Row) (history : History Row) (executor : Executor Row) :
    Prop where
  /-- A group merges or fails at most once. -/
  once : ∀ key, ((history.settledAt key).filter resolves).length ≤ 1
  /-- The tokens of a group that is not pending were each consumed by one outcome. -/
  consumed : ∀ key, executor.pending.get key = none → (history.arrivedAt key).Nodup ∧
    ((history.settledAt key).flatMap consumedTokens).Perm (history.arrivedAt key)
  /-- The tokens of a pending group are held. -/
  held : ∀ key pending, executor.pending.get key = some pending →
    history.settledAt key = [] ∧ history.arrivedAt key = pending.tokens
  /-- No branch of a pending group is both arrived and lost. -/
  apart : ∀ key pending, executor.pending.get key = some pending →
    ∀ branch ∈ pending.branches.keys, branch ∉ pending.lostBranches.keys
  /-- A merge consumes the tokens that had arrived, and its policy admits their number. -/
  merges : ∀ key outcome row consumed, outcome ∈ history.settledAt key →
    outcome.verdict = .merged row consumed →
      ∃ settings arrived late, env.settings key.1 = some settings ∧
        settings.Admits consumed.length ∧ history.settledAt key = outcome :: late ∧
        history.arrivedAt key = arrived ++ late.flatMap consumedTokens ∧
        consumed.Perm arrived

theorem Accounts.resolvesOnce {env : Environment Row} {history : History Row}
    {executor : Executor Row} (accounts : Accounts env history executor) :
    ResolvesOnce env history executor where
  once := by
    intro key
    have group := accounts.groups key
    generalize executor.pending.get key = waiting at group
    cases group with
    | untouched _ _ settled | waiting _ _ settled => simp [settled]
    | closed settled _ closes all_late _ =>
      rw [settled, filter_cons_of_pos (Closes.resolves closes).1,
        filter_eq_nil_iff.mpr fun outcome listed => by
          simp [unheld_of_late (all_late outcome listed)]]
      exact Nat.le_refl 1
  consumed := by
    intro key idle
    refine ⟨accounts.distinct key, ?_⟩
    have group := accounts.groups key
    rw [idle] at group
    cases group with
    | untouched arrived _ settled =>
      rw [arrived, settled]
      exact Perm.nil
    | closed settled _ closes _ arrived =>
      rw [arrived, settled]
      exact (Closes.resolves closes).2.append_right _
  held := by
    intro key pending found
    have group := accounts.groups key
    rw [found] at group
    cases group with
    | waiting arrived _ settled => exact ⟨settled, arrived⟩
  apart := by
    intro key pending found branch arrived lost
    have group := accounts.groups key
    rw [found] at group
    obtain ⟨settings, registered, joins⟩ := accounts.sound.joins key pending found
    obtain ⟨entry, isEntry⟩ := Dict.mem_keys.mp arrived
    cases group with
    | waiting arrived' lost' _ =>
      have token : entry.token ∈ history.arrivedAt key :=
        arrived' ▸ mem_map_of_mem (Dict.mem_values.mpr ⟨branch, isEntry⟩)
      exact accounts.apart key entry.token token branch (joins.arrived branch entry isEntry).2.1
        (lost' ▸ lost)
  merges := by
    intro key outcome row consumed listed verdict
    have group := accounts.groups key
    generalize executor.pending.get key = waiting at group
    cases group with
    | untouched _ _ settled | waiting _ _ settled =>
      rw [settled] at listed
      cases listed
    | @closed settings tokens closing late settled registered closes all_late arrived =>
      rw [settled] at listed
      rcases mem_cons.mp listed with rfl | isLate
      · obtain ⟨-, merged⟩ := closes
        simp only [verdict] at merged
        exact ⟨settings, tokens, late, registered, merged.1.length_eq ▸ merged.2, settled, arrived,
          merged.1⟩
      · have resolves := (unheld_of_late (all_late outcome isLate)).2
        simp [CoalesceOutcome.resolves, verdict] at resolves

/-- **Groups resolve once.**  In every history whose calls about closed groups find them
closed, a group resolves at most once and its tokens are consumed by one outcome each.
The next such call raises nothing but what planning a merge raises; a token whose group
has closed is rejected as late; and a flush leaves nothing pending. -/
theorem groups_resolve_once {env : Environment Row} {history : History Row}
    {executor : Executor Row} (runs : Runs env (Reports env ⊓ Recalls) history executor) :
    ResolvesOnce env history executor ∧
    ∀ call, Reports env history executor call → Recalls history executor call →
      (∀ raised, call.run env executor = .error raised →
        ∃ message, raised.error = .mergeRaised message) ∧
      (∀ key token, call.arrival key = some token → history.Resolved key →
        ∃ reason evidence next,
          call.run env executor = .ok ([⟨key, .late reason token evidence⟩], next)) ∧
      (∀ outcomes next, call = .flushPending → call.run env executor = .ok (outcomes, next) →
        ∀ key, next.pending.get key = none) := by
  have accounts := Accounts.of_runs runs
  refine ⟨accounts.resolvesOnce, ?_⟩
  rintro call ⟨expected, fresh⟩ recalls
  refine ⟨?_, ?_, ?_⟩
  · intro raised ran
    have returns := accounts.step expected fresh recalls
    rw [ran] at returns
    exact returns
  · intro key token brings resolved
    cases call with
    | accept other name now =>
      obtain ⟨settings, branch, groupId, registered, named, declared, grouped⟩ := expected
      rw [arrival_of_expected grouped, ite_none_right_eq_some] at brings
      obtain ⟨rfl, same⟩ := brings
      cases same
      have closed := recalls _ (by simp [member, grouped, named]; rfl) resolved
      obtain ⟨reason, evidence, next, ran, -⟩ :=
        accept_late accounts.sound registered named declared grouped now closed
      exact ⟨reason, evidence, next, by simp only [run, ran]; rfl⟩
    | _ => cases brings
  · rintro outcomes next rfl ran key
    have flushed := accounts.flushPending
    rw [ran] at flushed
    exact flushed.2 key

/-! ## A group that failed before any arrival -/

namespace Worked

/-- A coalesce of two branches that needs both. -/
def settings : CoalesceSettings :=
  .requireAllUnion "join" ["left", "right"] (by decide) (by decide)

/-- An environment with this one coalesce and the given bound. -/
def env (maxCompletedKeys : Option ℕ+) : Environment Unit where
  settings := fun name => if name = "join" then some settings else none
  settings_name := by
    intro name registered found
    split at found
    · cases found
      exact Eq.symm (by assumption)
    · cases found
  planMerge := fun _ _ => .merged ()
  maxCompletedKeys

def lost (groupId branch : String) : Call Unit :=
  .notifyBranchLost "join" groupId branch "diverted" 0

def arrives (groupId branch : String) : Call Unit :=
  .accept ⟨branch, [⟨.fork, groupId, branch⟩], ()⟩ "join" 0

end Worked

/-- Two branches that arrive are merged once. -/
theorem groups_resolve_once_joined : ∃ history executor,
    Runs (Worked.env none) (Reports (Worked.env none) ⊓ Recalls) history executor ∧
      history.Resolved ("join", "group") ∧
      ResolvesOnce (Worked.env none) history executor := by
  have first : Runs (Worked.env none) (Reports (Worked.env none) ⊓ Recalls)
      ([] ++ [(Worked.arrives "group" "left", _)]) _ :=
    .call .initial ⟨⟨⟨Worked.settings, "left", "group", rfl, rfl, by decide, rfl⟩, nofun⟩, by
      rintro member - ⟨outcome, listed, -⟩
      cases listed⟩ rfl
  have second : Runs (Worked.env none) (Reports (Worked.env none) ⊓ Recalls)
      (_ ++ [(Worked.arrives "group" "right", _)]) _ :=
    .call first ⟨⟨⟨Worked.settings, "right", "group", rfl, rfl, by decide, rfl⟩, by
      rintro member same
      cases same
      decide⟩, by
      rintro member same ⟨outcome, listed, -⟩
      cases same
      cases listed⟩ rfl
  exact ⟨_, _, second, ⟨_, mem_cons_self, rfl⟩, (groups_resolve_once second).1⟩

/-- A group that failed before any arrival left no node state.  A flush forgets it, and
the loss of its other branch fails it a second time. -/
theorem failed_group_fails_again : ∃ history executor,
    Runs (Worked.env (some 10000)) (Reports (Worked.env (some 10000))) history executor ∧
      2 ≤ ((history.settledAt ("join", "group")).filter resolves).length := by
  have first : Runs (Worked.env (some 10000)) (Reports (Worked.env (some 10000)))
      ([] ++ [(Worked.lost "group" "left", _)]) _ :=
    .call .initial ⟨⟨Worked.settings, rfl, by decide⟩, nofun⟩ rfl
  have second : Runs (Worked.env (some 10000)) (Reports (Worked.env (some 10000)))
      (_ ++ [(.flushPending, _)]) _ :=
    .call first ⟨trivial, nofun⟩ rfl
  have third : Runs (Worked.env (some 10000)) (Reports (Worked.env (some 10000)))
      (_ ++ [(Worked.lost "group" "right", _)]) _ :=
    .call second ⟨⟨Worked.settings, rfl, by decide⟩, by
      rintro member same
      cases same
      decide⟩ rfl
  exact ⟨_, _, third, by decide⟩

end Elspeth.Coalesce
