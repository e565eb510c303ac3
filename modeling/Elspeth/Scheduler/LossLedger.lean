import Elspeth.Scheduler.GroupLosses

/-!
# The group-loss ledger over many calls

A batch of losses is recorded as a whole or not at all.  Whether it is recorded, and what the
ledger says afterwards of members and tokens, depends on the losses named so far and not on their
order, on repetitions or on how they were spread over calls.  The generated identifiers are the
one thing outside: a batch needs as many new ones as it has losses.
-/

namespace Elspeth

open Relational List GroupLossSpec Txn

/-- The run's ledger holds that the token lost the member. -/
def Db.Claims (db : Db) (runId : String) (key : String × String × String) (tokenId : String) :
    Prop :=
  ∃ loss ∈ db.groupLosses.rows, loss.runId = runId ∧ loss.key = key ∧ loss.tokenId = tokenId

/-- The tables that a loss refers to have its run and its token. -/
def Db.Knows (db : Db) (runId tokenId : String) : Prop :=
  runId ∈ db.runs.rows.map Run.runId ∧
    ∃ token ∈ db.tokens.rows, token.tokenId = tokenId ∧ token.runId = runId

/-- No reason is too long, no member is claimed by two tokens, and the token of a member that
is lost for the first time is known. -/
structure Consistent (db : Db) (runId : String) (specs : List GroupLossSpec) : Prop where
  short : ∀ spec ∈ specs, spec.reason.length ≤ groupLossReasonMaxLength
  agree : ∀ spec ∈ specs, ∀ other ∈ specs, other.key = spec.key → other.tokenId = spec.tokenId
  stored : ∀ spec ∈ specs, ∀ tokenId, db.Claims runId spec.key tokenId → tokenId = spec.tokenId
  known : ∀ spec ∈ specs, (∀ tokenId, ¬ db.Claims runId spec.key tokenId) →
    db.Knows runId spec.tokenId

/-- Earlier rows stay; a new row is the first loss of its member in the batch; every member has
one row. -/
structure Records (db : Db) (runId : String) (specs : List GroupLossSpec) (after : Db) : Prop where
  kept : db.groupLosses.rows <+: after.groupLosses.rows
  added : ∀ loss ∈ after.groupLosses.rows, loss ∈ db.groupLosses.rows ∨ loss.runId = runId ∧
    ∃ spec, specs.find? (·.key = loss.key) = some spec ∧
      loss.tokenId = spec.tokenId ∧ loss.reason = spec.reason
  claimed : ∀ spec ∈ specs, after.Claims runId spec.key spec.tokenId
  once : ∀ loss ∈ after.groupLosses.rows, ∀ other ∈ after.groupLosses.rows,
    loss.runId = other.runId → loss.key = other.key → loss = other
  refers : after.runs = db.runs ∧ after.tokens = db.tokens

/-- One call of `record_group_losses` in a transaction of its own. -/
structure LossCall where
  env : CallEnv
  specs : List GroupLossSpec
  recordedBy : String
  now : Time

def LossCall.run (call : LossCall) (runId : String) (db : Db) : Except LandscapeError Unit × Db :=
  beginWrite call.env (recordGroupLosses call.env runId call.specs call.recordedBy call.now) db

/-- The identifiers a batch of so many losses may generate. -/
def lossIds (env : CallEnv) (count : Nat) : List String :=
  (range count).map fun n => shortId "loss" (env.generatedId n)

/-- The identifiers the call may generate are new and differ. -/
def LossCall.Fresh (call : LossCall) (db : Db) : Prop :=
  (db.groupLosses.rows.map GroupLoss.lossId ++ lossIds call.env call.specs.length).Nodup

section Batch

variable {env : CallEnv} {runId recordedBy : String} {now : Time} {conn conn' : Conn}
  {specs seen first : List GroupLossSpec} {db after : Db} {call : LossCall}

section

variable (seen specs : List GroupLossSpec)

/-- The first loss of each member. -/
def firsts : List GroupLossSpec :=
  specs.foldl (fun seen spec => if seen.any (·.key = spec.key) then seen else seen ++ [spec]) seen

theorem find?_firsts (key : String × String × String) :
    (firsts seen specs).find? (·.key = key) = (seen ++ specs).find? (·.key = key) := by
  unfold firsts
  induction specs generalizing seen with
  | nil => simp
  | cons spec specs ih =>
    rw [foldl_cons, ih]
    split
    next known =>
      obtain ⟨old, mem, same⟩ := any_eq_true.mp known
      rw [find?_append, find?_append]
      by_cases here : spec.key = key
      · have found : (seen.find? (·.key = key)).isSome := by
          rw [find?_isSome]
          exact ⟨old, mem, by simpa [here] using same⟩
        obtain ⟨other, found⟩ := Option.isSome_iff_exists.mp found
        rw [found]
        rfl
      · simp [here]
    · simp

theorem nodup_firsts
    (distinct : (seen.map key).Nodup) : ((firsts seen specs).map key).Nodup := by
  unfold firsts
  induction specs generalizing seen with
  | nil => exact distinct
  | cons spec specs ih =>
    rw [foldl_cons]
    split
    · exact ih seen distinct
    next fresh =>
      refine ih _ ?_
      rw [map_append]
      exact distinct.append (nodup_singleton _) (by simpa using fresh)

end

theorem firstLosses_eq_ok (seen : List GroupLossSpec) (distinct : (seen.map key).Nodup) :
    firstLosses seen specs conn = .ok (first, conn') ↔
      conn' = conn ∧ first = firsts seen specs ∧
        ∀ spec ∈ specs, spec.reason.length ≤ groupLossReasonMaxLength ∧
          ∀ other ∈ seen ++ specs, other.key = spec.key → other.tokenId = spec.tokenId := by
  unfold firsts
  induction specs generalizing seen with
  | nil => simp [firstLosses, and_comm]
  | cons spec specs ih =>
    simp only [firstLosses, bind_eq_ok, ensure_eq_ok, foldl_cons]
    cases found : seen.find? (·.key = spec.key) with
    | none =>
      grind
    | some old =>
      have mem := mem_of_find?_eq_some found
      have same : old.key = spec.key := by simpa using find?_some found
      simp only [bind_eq_ok, ensure_eq_ok]
      have only : ∀ other ∈ seen, other.key = spec.key → other = old := fun other listed here =>
        inj_on_of_nodup_map distinct listed mem (here.trans same.symm)
      grind

/-- The row of a loss. -/
def Tells (runId : String) (spec : GroupLossSpec) (loss : GroupLoss) : Prop :=
  loss.runId = runId ∧ loss.key = spec.key ∧ loss.tokenId = spec.tokenId ∧
    loss.reason = spec.reason

theorem groupLossRows_ok (env : CallEnv) (runId recordedBy : String) (now : Time)
    (first : List GroupLossSpec) (conn : Conn) :
    ∃ rows, mapEach (groupLossRow env runId recordedBy now) first conn =
        .ok (rows, { conn with generatedIds := conn.generatedIds + first.length }) ∧
      Forall₂ (Tells runId) first rows ∧
      rows.map GroupLoss.lossId = (range' conn.generatedIds first.length).map
        fun n => shortId "loss" (env.generatedId n) := by
  induction first generalizing conn with
  | nil => exact ⟨[], rfl, .nil, rfl⟩
  | cons spec first ih =>
    obtain ⟨rows, ran, each, named⟩ := ih { conn with generatedIds := conn.generatedIds + 1 }
    refine ⟨_ :: rows, mapEach_cons_eq_ok.mpr ⟨_, _, rows, rfl, ?_, rfl⟩,
      .cons ⟨rfl, rfl, rfl, rfl⟩ each, ?_⟩
    · rw [ran, length_cons]
      simp only [Nat.add_assoc, Nat.add_comm 1]
    · rw [map_cons, named]
      rfl

theorem checkStoredLosses_eq_ok {existing : List GroupLoss} {value : Unit} :
    forEach (checkStoredLoss existing) specs conn = .ok (value, conn') ↔
      conn' = conn ∧ ∀ spec ∈ specs, ∃ loss, existing.find? (·.key = spec.key) = some loss ∧
        loss.tokenId = spec.tokenId := by
  induction specs with
  | nil => simp
  | cons spec specs ih =>
    rw [forEach_cons_eq_ok, forall_mem_cons, checkStoredLoss]
    cases existing.find? (·.key = spec.key) with
    | none => simp
    | some loss => simp [ih, and_left_comm]

theorem unique_natural (table : Table GroupLoss Violation groupLossConstraints)
    {loss other : GroupLoss}
    (mem : loss ∈ table.rows) (otherMem : other ∈ table.rows) (run : loss.runId = other.runId)
    (key : loss.key = other.key) : loss = other := by
  have unique : Unique (fun loss : GroupLoss =>
      (loss.runId, loss.closerName, loss.groupId, loss.memberKey)) table.rows :=
    table.holds (uniqueConstraint .groupLossesNatural _) (by simp [groupLossConstraints])
  exact unique.eq_of_key mem otherMem (Prod.ext run key)

/-- A member's first loss is found under its key. -/
theorem find?_of_mem_firsts {spec : GroupLossSpec} (mem : spec ∈ firsts [] specs) :
    specs.find? (·.key = spec.key) = some spec := by
  have found := find?_firsts [] specs spec.key
  rw [nil_append] at found
  rw [← found]
  obtain ⟨other, here⟩ := Option.isSome_iff_exists.mp
    (find?_isSome.mpr ⟨spec, mem, by simp⟩ :
      ((firsts [] specs).find? (·.key = spec.key)).isSome)
  have same : other.key = spec.key := by simpa using find?_some here
  rw [here, inj_on_of_nodup_map (nodup_firsts [] specs nodup_nil)
    (mem_of_find?_eq_some here) mem same]

theorem key_mem_firsts {spec : GroupLossSpec} (mem : spec ∈ specs) :
    spec.key ∈ (firsts [] specs).map key := by
  have found : (specs.find? (·.key = spec.key)).isSome := find?_isSome.mpr ⟨spec, mem, by simp⟩
  rw [← nil_append specs, ← find?_firsts, find?_isSome] at found
  obtain ⟨first, listed, same⟩ := found
  exact mem_map.mpr ⟨first, listed, of_decide_eq_true same⟩

theorem length_firsts (seen specs : List GroupLossSpec) :
    (firsts seen specs).length ≤ seen.length + specs.length := by
  unfold firsts
  induction specs generalizing seen with
  | nil => exact le_rfl
  | cons spec specs ih =>
    rw [foldl_cons]
    split
    · exact (ih seen).trans (by simp)
    · refine (ih _).trans ?_
      simp only [length_append, length_cons, length_nil]
      omega

/-- A recorded batch was consistent, and leaves its losses in the ledger. -/
theorem recordGroupLosses_ok
    (ran : recordGroupLosses env runId specs recordedBy now conn = .ok ((), conn')) :
    Consistent conn.db runId specs ∧ Records conn.db runId specs conn'.db := by
  simp only [recordGroupLosses, bind_eq_ok,
    firstLosses_eq_ok [] nodup_nil,
    Slot.select_eq_ok, query_eq_ok, ensure_eq_ok, Slot.insert_eq_ok, checkStoredLosses_eq_ok] at ran
  obtain ⟨_, conn, ⟨rfl, rfl, agree⟩, rows, _, made, _, _, ⟨rfl, rfl⟩, _, _, ⟨rfl, rfl⟩, _, _,
    ⟨rfl, rfl⟩, _, _, ⟨refers, rfl⟩, _, _, ⟨table, stored, rfl⟩, _, _, ⟨rfl, rfl⟩, rfl,
      checked⟩ := ran
  obtain ⟨_, made', each, -⟩ := groupLossRows_ok env runId recordedBy now (firsts [] specs) conn
  cases made'.symm.trans made
  have claimed : ∀ spec ∈ specs, ∃ loss ∈ table.rows,
      loss.runId = runId ∧ loss.key = spec.key ∧ loss.tokenId = spec.tokenId := by
    intro spec mem
    obtain ⟨loss, found, token⟩ := checked spec mem
    obtain ⟨listed, run⟩ := mem_filter.mp (mem_of_find?_eq_some found)
    exact ⟨loss, listed, by simpa using run, by simpa using find?_some found, token⟩
  refine ⟨⟨fun spec mem => (agree spec mem).1, fun spec mem => (agree spec mem).2, ?_, ?_⟩,
    ⟨⟨_, stored.symm⟩, ?_, claimed, fun _ mem _ listed => unique_natural table mem listed,
      rfl, rfl⟩⟩
  · rintro spec mem _ ⟨old, listed, run, key, rfl⟩
    obtain ⟨loss, here, run', key', token⟩ := claimed spec mem
    rw [← token, unique_natural table (stored ▸ mem_append_left _ listed) here
      (run.trans run'.symm) (key.trans key'.symm)]
  · intro spec mem unclaimed
    -- The row that claims the member is new, so it was checked.
    obtain ⟨loss, here, run, key, token⟩ := claimed spec mem
    rcases mem_append.mp (stored ▸ here : loss ∈ _ ++ _) with old | new
    · exact absurd ⟨loss, old, run, key, rfl⟩ (unclaimed loss.tokenId)
    · have known := refers loss new
      rw [token, run] at known
      exact known
  · intro loss listed
    rcases mem_append.mp (stored ▸ listed : loss ∈ _ ++ _) with old | new
    · exact .inl old
    · obtain ⟨spec, mem, run, key, rest⟩ := mem_of_forall₂_right each (mem_filter.mp new).1
      exact .inr ⟨run, spec, key ▸ find?_of_mem_firsts mem, rest⟩

theorem mem_newLosses {stored rows : List GroupLoss} {row : GroupLoss} :
    row ∈ newLosses stored rows ↔ row ∈ rows ∧ ∀ loss ∈ stored, loss.key ≠ row.key := by
  simp [newLosses]

/-- A consistent batch is recorded, if its identifiers are fresh. -/
theorem recordGroupLosses_isOk (consistent : Consistent conn.db runId specs)
    (first : conn.generatedIds = 0)
    (fresh : (conn.db.groupLosses.rows.map GroupLoss.lossId ++ lossIds env specs.length).Nodup) :
    ∃ conn', recordGroupLosses env runId specs recordedBy now conn = .ok ((), conn') ∧
      conn'.issued = conn.issued := by
  obtain ⟨rows, made, each, named⟩ :=
    groupLossRows_ok env runId recordedBy now (firsts [] specs) conn
  have keyed : rows.map GroupLoss.key = (firsts [] specs).map key :=
    map_eq_of_forall₂ (fun _ _ tells => tells.2.1) each
  obtain ⟨-, distinct, apart⟩ := nodup_append.mp fresh
  have ids : (rows.map GroupLoss.lossId).Sublist (lossIds env specs.length) := by
    rw [named, first, ← range_eq_range', lossIds]
    exact (range_sublist.mpr (by simpa using length_firsts [] specs)).map _
  have told (row : GroupLoss) (mem : row ∈ rows) : ∃ spec ∈ specs, Tells runId spec row := by
    obtain ⟨spec, listed, tells⟩ := mem_of_forall₂_right each mem
    exact ⟨spec, mem_of_find?_eq_some (find?_of_mem_firsts listed), tells⟩
  let new := newLosses (conn.db.groupLosses.rows.filter (·.runId = runId)) rows
  have valid : Constraint.violated groupLossConstraints (conn.db.groupLosses.rows ++ new) =
      none := by
    have old := Constraint.violated_eq_none.mp conn.db.groupLosses.valid
    rw [Constraint.violated_eq_none]
    simp only [groupLossConstraints, forall_mem_cons] at old ⊢
    refine ⟨unique_append.mpr ⟨old.1, ?_, ?_⟩, unique_append.mpr ⟨old.2.1, ?_, ?_⟩, by simp⟩
    · exact Nodup.sublist ((filter_sublist.map _).trans ids) distinct
    · intro loss mem row listed same
      have made : row.lossId ∈ lossIds env specs.length :=
        ids.subset (mem_map_of_mem (mem_filter.mp listed).1)
      exact apart _ (mem_map_of_mem mem) _ made same
    · refine Nodup.of_map Prod.snd ?_
      rw [map_map]
      refine Nodup.sublist (filter_sublist.map _) ?_
      exact keyed ▸ nodup_firsts [] specs nodup_nil
    · intro loss mem row listed same
      obtain ⟨listed, unlike⟩ := mem_newLosses.mp listed
      obtain ⟨-, -, run, -⟩ := told row listed
      refine unlike loss (mem_filter.mpr ⟨mem, ?_⟩) ?_
      · exact decide_eq_true ((congrArg Prod.fst same).trans run)
      · exact congrArg Prod.snd same
  refine ⟨groupLossesSlot.put ⟨_, valid⟩
    { conn with generatedIds := conn.generatedIds + (firsts [] specs).length }, ?_, rfl⟩
  simp only [recordGroupLosses, bind_eq_ok, firstLosses_eq_ok [] nodup_nil,
    Slot.select_eq_ok, query_eq_ok, ensure_eq_ok, Slot.insert_eq_ok, checkStoredLosses_eq_ok]
  refine ⟨_, conn, ⟨rfl, rfl, fun spec mem =>
    ⟨consistent.short spec mem, consistent.agree spec mem⟩⟩,
    rows, _, made, _, _, ⟨rfl, rfl⟩, _, _, ⟨rfl, rfl⟩, _, _, ⟨rfl, rfl⟩, (), _, ⟨?_, rfl⟩, (), _,
    ⟨⟨_, valid⟩, rfl, rfl⟩, _, _, ⟨rfl, rfl⟩, rfl, ?_⟩
  · intro row listed
    obtain ⟨listed, unlike⟩ := mem_newLosses.mp listed
    obtain ⟨spec, mem, run, key, token, -⟩ := told row listed
    rw [run, token]
    refine consistent.known spec mem fun tokenId claims => ?_
    obtain ⟨loss, stored, lossRun, lossKey, -⟩ := claims
    refine unlike loss (mem_filter.mpr ⟨stored, ?_⟩) ?_
    · exact decide_eq_true lossRun
    · exact lossKey.trans key.symm
  intro spec mem
  have present : ∃ loss ∈ (conn.db.groupLosses.rows ++ new).filter (·.runId = runId),
      decide (loss.key = spec.key) = true := by
    by_cases stored : ∃ loss ∈ conn.db.groupLosses.rows.filter (·.runId = runId),
      loss.key = spec.key
    · obtain ⟨loss, here, same⟩ := stored
      exact ⟨loss, by rw [filter_append]; exact mem_append_left _ here, decide_eq_true same⟩
    · obtain ⟨row, listed, same⟩ := mem_map.mp (keyed ▸ key_mem_firsts mem)
      obtain ⟨-, -, run, -⟩ := told row listed
      refine ⟨row, mem_filter.mpr ⟨mem_append_right _ ?_, decide_eq_true run⟩,
        decide_eq_true same⟩
      exact mem_newLosses.mpr ⟨listed, fun loss here taken =>
        stored ⟨loss, here, taken.trans same⟩⟩
  obtain ⟨loss, found⟩ := Option.isSome_iff_exists.mp (find?_isSome.mpr present)
  refine ⟨loss, found, ?_⟩
  have key : loss.key = spec.key := by simpa using find?_some found
  obtain ⟨listed, run⟩ := mem_filter.mp (mem_of_find?_eq_some found)
  rcases mem_append.mp listed with old | new
  · exact consistent.stored spec mem _ ⟨loss, old, of_decide_eq_true run, key, rfl⟩
  · obtain ⟨other, otherMem, -, sameKey, token, -⟩ := told loss (mem_filter.mp new).1
    rw [token]
    exact consistent.agree spec mem other otherMem (sameKey.symm.trans key)

theorem LossCall.run_ok (ran : call.run runId db = (.ok (), after)) :
    Consistent db runId call.specs ∧ Records db runId call.specs after := by
  obtain ⟨conn, returned, rfl⟩ := beginWrite_ok ran
  exact recordGroupLosses_ok returned

theorem LossCall.run_isOk (fresh : call.Fresh db) (consistent : Consistent db runId call.specs) :
    ∃ after, call.run runId db = (.ok (), after) := by
  obtain ⟨conn, returned, silent⟩ := @recordGroupLosses_isOk call.env runId call.recordedBy call.now
    (Conn.start db) call.specs consistent rfl fresh
  refine ⟨conn.db, transact_eq_ok.mpr ⟨conn, returned, commit_eq_ok.mpr ⟨?_, rfl⟩⟩⟩
  rw [silent]
  rfl

end Batch

/-! ## Many calls -/

/-- Record batch after batch, until one raises. -/
def recordAll (runId : String) (calls : List LossCall) (db : Db) : Except LandscapeError Db :=
  calls.foldlM (fun db call =>
    match call.run runId db with
    | (.ok _, middle) => .ok middle
    | (.error raised, _) => .error raised) db

section Calls

variable {runId : String} {db after : Db} {specs rest : List GroupLossSpec} {calls : List LossCall}

theorem Records.claims (records : Records db runId specs after)
    {key : String × String × String} {tokenId : String} :
    after.Claims runId key tokenId ↔ db.Claims runId key tokenId ∨
      ∃ spec ∈ specs, spec.key = key ∧ spec.tokenId = tokenId := by
  constructor
  · rintro ⟨loss, listed, run, rfl, rfl⟩
    rcases records.added loss listed with old | ⟨-, spec, found, token, -⟩
    · exact .inl ⟨loss, old, run, rfl, rfl⟩
    · refine .inr ⟨spec, mem_of_find?_eq_some found, ?_, token.symm⟩
      simpa using find?_some found
  · rintro (⟨loss, old, rest⟩ | ⟨spec, mem, rfl, rfl⟩)
    · exact ⟨loss, records.kept.subset old, rest⟩
    · exact records.claimed spec mem

theorem Consistent.subset (whole : Consistent db runId rest) (sub : specs ⊆ rest) :
    Consistent db runId specs :=
  ⟨fun spec mem => whole.short spec (sub mem),
    fun spec mem other listed => whole.agree spec (sub mem) other (sub listed),
    fun spec mem => whole.stored spec (sub mem), fun spec mem => whole.known spec (sub mem)⟩

theorem Records.knows (records : Records db runId specs after) {tokenId : String} :
    after.Knows runId tokenId ↔ db.Knows runId tokenId := by
  unfold Db.Knows
  rw [records.refers.1, records.refers.2]

/-- A batch is consistent if its first part is, and the rest is after that. -/
theorem Records.consistent_append (records : Records db runId specs after)
    (first : Consistent db runId specs) :
    Consistent db runId (specs ++ rest) ↔ Consistent after runId rest := by
  constructor
  · intro both
    refine { both.subset (subset_append_right specs rest) with stored := ?_, known := ?_ }
    · intro spec mem tokenId claims
      rcases records.claims.mp claims with old | ⟨other, listed, key, rfl⟩
      · exact both.stored spec (mem_append_right _ mem) tokenId old
      · exact both.agree spec (mem_append_right _ mem) other (mem_append_left _ listed) key
    · intro spec mem unclaimed
      refine records.knows.mpr (both.known spec (mem_append_right _ mem) fun tokenId claims => ?_)
      exact unclaimed tokenId (records.claims.mpr (.inl claims))
  · intro later
    refine ⟨forall_mem_append.mpr ⟨first.short, later.short⟩, ?_,
      forall_mem_append.mpr ⟨first.stored, fun spec mem tokenId claims =>
        later.stored spec mem tokenId (records.claims.mpr (.inl claims))⟩,
      forall_mem_append.mpr ⟨first.known, fun spec mem unclaimed => ?_⟩⟩
    · intro spec mem other listed key
      rcases mem_append.mp mem with mem | mem <;>
        rcases mem_append.mp listed with listed | listed
      · exact first.agree spec mem other listed key
      · exact (later.stored other listed _
          (records.claims.mpr (.inr ⟨spec, mem, key.symm, rfl⟩))).symm
      · exact later.stored spec mem _ (records.claims.mpr (.inr ⟨other, listed, key, rfl⟩))
      · exact later.agree spec mem other listed key
    · -- The member is new, or the first part claimed it for the same, known, token.
      by_cases claims : ∃ tokenId, after.Claims runId spec.key tokenId
      · obtain ⟨tokenId, claims⟩ := claims
        rw [← later.stored spec mem tokenId claims]
        rcases records.claims.mp claims with old | ⟨other, listed, key, rfl⟩
        · exact absurd old (unclaimed tokenId)
        · exact first.known other listed (key ▸ unclaimed)
      · exact records.knows.mp (later.known spec mem (not_exists.mp claims))

theorem recordAll_cons {call : LossCall} :
    recordAll runId (call :: calls) db = .ok after ↔
      ∃ middle, call.run runId db = (.ok (), middle) ∧
          recordAll runId calls middle = .ok after := by
  unfold recordAll
  rw [foldlM_cons]
  rcases call.run runId db with ⟨_ | _, middle⟩
  · simp [bind, Except.bind]
  · simp [bind, Except.bind]

/-- What many calls leave depends on all the losses they name. -/
theorem recordAll_ok (ran : recordAll runId calls db = .ok after) :
    Consistent db runId (calls.flatMap LossCall.specs) ∧ ∀ key tokenId,
      after.Claims runId key tokenId ↔ db.Claims runId key tokenId ∨
        ∃ spec ∈ calls.flatMap LossCall.specs, spec.key = key ∧ spec.tokenId = tokenId := by
  induction calls generalizing db with
  | nil =>
    cases ran
    exact ⟨⟨nofun, nofun, nofun, nofun⟩, by simp⟩
  | cons call calls ih =>
    obtain ⟨middle, first, rest⟩ := recordAll_cons.mp ran
    obtain ⟨consistent, records⟩ := LossCall.run_ok first
    obtain ⟨later, claims⟩ := ih rest
    refine ⟨(records.consistent_append consistent).mpr later, fun key tokenId => ?_⟩
    rw [claims, records.claims, flatMap_cons]
    simp only [mem_append, or_and_right, exists_or, or_assoc]

/-- Each call generates identifiers that no row has when its turn comes. -/
def FreshAlong (runId : String) (calls : List LossCall) (db : Db) : Prop :=
  ∀ before call rest, calls = before ++ call :: rest →
    ∀ middle, recordAll runId before db = .ok middle → call.Fresh middle

theorem recordAll_isOk (fresh : FreshAlong runId calls db)
    (consistent : Consistent db runId (calls.flatMap LossCall.specs)) :
    ∃ after, recordAll runId calls db = .ok after := by
  induction calls generalizing db with
  | nil => exact ⟨db, rfl⟩
  | cons call calls ih =>
    have alone : Consistent db runId call.specs := consistent.subset (subset_append_left ..)
    obtain ⟨middle, first⟩ := LossCall.run_isOk (fresh [] call calls rfl db rfl) alone
    have later : FreshAlong runId calls middle := fun before next rest split reached ran =>
      fresh (call :: before) next rest (congrArg _ split) reached
        (recordAll_cons.mpr ⟨middle, first, ran⟩)
    obtain ⟨after, rest⟩ := ih later
      (((LossCall.run_ok first).2.consistent_append alone).mp consistent)
    exact ⟨after, recordAll_cons.mpr ⟨middle, first, rest⟩⟩

/-- **The ledger of group losses is idempotent and does not depend on order.**  A batch raises
and leaves the database as it is, or is recorded; a consistent batch is recorded, and an
inconsistent one raises, in one call or spread over several; and calls that name the same losses
leave the same claims and succeed alike. -/
theorem group_loss_ledger (runId : String) (db : Db) :
    (∀ call : LossCall, (∃ raised, call.run runId db = (.error raised, db)) ∨
      ∃ after, call.run runId db = (.ok (), after) ∧ Records db runId call.specs after) ∧
    (∀ calls : List LossCall, FreshAlong runId calls db →
      Consistent db runId (calls.flatMap LossCall.specs) →
      ∃ after, recordAll runId calls db = .ok after ∧
        ∀ call ∈ calls, ∀ spec ∈ call.specs, after.Claims runId spec.key spec.tokenId) ∧
    (∀ calls : List LossCall, ¬Consistent db runId (calls.flatMap LossCall.specs) →
      ∃ raised, recordAll runId calls db = .error raised) ∧
    ∀ calls others : List LossCall,
      (∀ spec, spec ∈ calls.flatMap LossCall.specs ↔ spec ∈ others.flatMap LossCall.specs) →
      (∀ after after', recordAll runId calls db = .ok after →
        recordAll runId others db = .ok after' →
        ∀ key tokenId, after.Claims runId key tokenId ↔ after'.Claims runId key tokenId) ∧
      (FreshAlong runId calls db → FreshAlong runId others db →
        ((∃ after, recordAll runId calls db = .ok after) ↔
          ∃ after, recordAll runId others db = .ok after)) := by
  refine ⟨fun call => ?_, fun calls fresh consistent => ?_, fun calls clash => ?_,
    fun calls others same => ⟨?_, fun fresh fresh' => ?_⟩⟩
  · rcases ran : call.run runId db with ⟨raised | _, after⟩
    · exact .inl ⟨raised, by rw [beginWrite_error ran]⟩
    · exact .inr ⟨after, rfl, (LossCall.run_ok ran).2⟩
  · obtain ⟨after, ran⟩ := recordAll_isOk fresh consistent
    refine ⟨after, ran, fun call listed spec mem => ((recordAll_ok ran).2 _ _).mpr (.inr ?_)⟩
    exact ⟨spec, mem_flatMap.mpr ⟨call, listed, mem⟩, rfl, rfl⟩
  · cases ran : recordAll runId calls db with
    | error raised => exact ⟨raised, rfl⟩
    | ok => exact absurd (recordAll_ok ran).1 clash
  · intro after after' ran ran' key tokenId
    simp only [(recordAll_ok ran).2, (recordAll_ok ran').2, same]
  · constructor
    · rintro ⟨after, ran⟩
      exact recordAll_isOk fresh' ((recordAll_ok ran).1.subset fun spec => (same spec).mpr)
    · rintro ⟨after, ran⟩
      exact recordAll_isOk fresh ((recordAll_ok ran).1.subset fun spec => (same spec).mp)

end Calls

namespace Worked

/-- A run with two tokens, and nothing lost yet. -/
def forked : Db :=
  { Db.empty with
    runs := ⟨[⟨"run-1", .running, "config", none, none⟩], by decide⟩
    tokens := ⟨[⟨"token-1", "row-1", "run-1", none, 0, none, none⟩,
      ⟨"token-2", "row-1", "run-1", none, 0, none, none⟩], by decide⟩ }

/-- Both branches are lost, the left one twice. -/
def losing : LossCall where
  env :=
    { dialect := .sqlite
      decisionTime := fun _ => 0
      decisionTime_mono := monotone_const
      transactionTime := fun _ => 0
      transactionTime_mono := monotone_const
      processTime := 0
      generatedId := fun count => "generated-" ++ toString count
      bestEffortLost := false }
  specs := [⟨"join", "group-1", "left", "token-1", "quarantined"⟩,
    ⟨"join", "group-1", "right", "token-2", "quarantined"⟩,
    ⟨"join", "group-1", "left", "token-1", "error_routed"⟩]
  recordedBy := "worker-1"
  now := 0

end Worked

/-- The two losses are recorded once each, the left one with its first reason. -/
theorem group_loss_ledger_worked :
    (Worked.losing.run "run-1" Worked.forked).2.groupLosses.rows.map
        (fun loss => (loss.memberKey, loss.tokenId, loss.reason)) =
        [("left", "token-1", "quarantined"), ("right", "token-2", "quarantined")] ∧
      ∃ after, recordAll "run-1" [Worked.losing] Worked.forked = .ok after ∧
        ∀ call ∈ [Worked.losing], ∀ spec ∈ call.specs,
          after.Claims "run-1" spec.key spec.tokenId := by
  have fresh : FreshAlong "run-1" [Worked.losing] Worked.forked := by
    intro before call rest split middle ran
    obtain ⟨rfl, rfl, rfl⟩ : before = [] ∧ call = Worked.losing ∧ rest = [] := by
      cases before <;> simp_all
    cases ran
    unfold LossCall.Fresh
    decide +kernel
  refine ⟨by decide +kernel, (group_loss_ledger "run-1" Worked.forked).2.1 _ fresh ?_⟩
  refine ⟨by decide, by decide, ?_, ?_⟩
  · rintro spec mem tokenId ⟨loss, listed, -⟩
    cases listed
  · have known : ∀ spec ∈ Worked.losing.specs, ∃ token ∈ Worked.forked.tokens.rows,
        token.tokenId = spec.tokenId ∧ token.runId = "run-1" := by decide
    exact fun spec mem _ => ⟨by decide, known spec (by simpa using mem)⟩

end Elspeth
