import Elspeth.Relational.Table
import Elspeth.Relational.Transaction

/-!
# SQL statements on one table of a session

A `Slot` says where a table lives inside a session state and which error its
constraint violations raise.  `INSERT` and `UPDATE` are then the same programs
for every table: compute the new row list, store it if the constraints allow,
report the row count.

The statements are characterised by equivalences.  A successful statement put a
table with the computed rows into the slot; conversely, any table with those
rows is evidence that the constraints held, so the statement succeeds.
-/

namespace Relational

open Constraint Table Txn

/-- The place of one constrained table inside a session state. -/
structure Slot (σ ε α ν : Type) (constraints : List (Constraint α ν)) where
  /-- Read the table. -/
  get : σ → Table α ν constraints
  /-- Replace the table. -/
  put : Table α ν constraints → σ → σ
  /-- The error raised for a violated constraint. -/
  raises : ν → ε
  /-- The replaced table is the one that is read afterwards. -/
  get_put : ∀ table session, get (put table session) = table := by intros; rfl
  /-- Writing the table back changes nothing. -/
  put_get : ∀ session, put (get session) session = session := by intros; rfl
  /-- Only the last write of the table counts. -/
  put_put : ∀ first second session, put second (put first session) = put second session := by
    intros; rfl

namespace Slot

variable {σ ε α ν : Type} {constraints : List (Constraint α ν)}

/-- The stored rows. -/
def rows (slot : Slot σ ε α ν constraints) (session : σ) : List α :=
  (slot.get session).rows

section

variable (slot : Slot σ ε α ν constraints)

/-- Store a new row list in the slot, or raise the violated constraint. -/
def write (rows : List α) : Txn σ ε Unit :=
  fun session =>
    match store constraints rows with
    | .ok table => .ok ((), slot.put table session)
    | .error broken => .error (slot.raises broken)

/-- `INSERT INTO … VALUES …`. -/
def insert (added : List α) : Txn σ ε Unit :=
  fun session => slot.write (slot.rows session ++ added) session

/-- `UPDATE … SET … WHERE …`, returning the row count. -/
def update (selected : α → Bool)
    (change : α → α) : Txn σ ε Nat := do
  let rows ← query slot.rows
  slot.write (updateRows selected change rows)
  pure (rows.countP selected)

/-- `SELECT … WHERE …`, in physical order. -/
def select (selected : α → Bool) :
    Txn σ ε (List α) :=
  query fun session => (slot.rows session).filter selected

end

variable {slot : Slot σ ε α ν constraints} {session session' : σ}

@[simp] theorem rows_put (table : Table α ν constraints) :
    slot.rows (slot.put table session) = table.rows := by
  unfold rows
  rw [slot.get_put]

variable {rows added : List α} {value : Unit} {error : ε} {selected : α → Bool} {change : α → α}
  {count : Nat}

theorem write_eq_ok :
    slot.write rows session = .ok (value, session') ↔
      ∃ table : Table α ν constraints, table.rows = rows ∧
        session' = slot.put table session := by
  unfold write
  cases stored : store constraints rows with
  | ok table =>
    have sameRows : table.rows = rows := store_eq_ok.mp stored
    simp only [Except.ok.injEq, Prod.mk.injEq, true_and]
    constructor
    · rintro rfl
      exact ⟨table, sameRows, rfl⟩
    · rintro ⟨other, otherRows, rfl⟩
      rw [ext_rows (sameRows.trans otherRows.symm)]
  | error =>
    simp only [reduceCtorEq, false_iff]
    rintro ⟨table, sameRows, -⟩
    rw [store_eq_ok.mpr sameRows] at stored
    cases stored

theorem write_eq_error :
    slot.write rows session = .error error ↔
      ∃ broken, violated constraints rows = some broken ∧
        slot.raises broken = error := by
  unfold write
  cases stored : store constraints rows with
  | ok table =>
    have valid := table.valid
    rw [store_eq_ok.mp stored] at valid
    simp [valid]
  | error =>
    have violated := store_eq_error.mp stored
    simp [violated]

theorem insert_eq_ok :
    slot.insert added session = .ok (value, session') ↔
      ∃ table : Table α ν constraints, table.rows = slot.rows session ++ added ∧
        session' = slot.put table session :=
  write_eq_ok

theorem insert_eq_error :
    slot.insert added session = .error error ↔
      ∃ broken, violated constraints (slot.rows session ++ added) =
        some broken ∧ slot.raises broken = error :=
  write_eq_error

theorem update_eq_ok :
    slot.update selected change session = .ok (count, session') ↔
      count = (slot.rows session).countP selected ∧
        ∃ table : Table α ν constraints,
          table.rows = updateRows selected change (slot.rows session) ∧
            session' = slot.put table session := by
  simp only [update, bind_eq_ok, query_eq_ok, write_eq_ok, pure_eq_ok]
  constructor
  · rintro ⟨_, _, ⟨rfl, rfl⟩, _, _, ⟨table, sameRows, rfl⟩, rfl, rfl⟩
    exact ⟨rfl, table, sameRows, rfl⟩
  · rintro ⟨rfl, table, sameRows, rfl⟩
    exact ⟨_, _, ⟨rfl, rfl⟩, (), _, ⟨table, sameRows, rfl⟩, rfl, rfl⟩

/-- A statement that writes back what it read leaves the session as it was. -/
theorem update_same (ran : slot.update selected change session = .ok (count, session'))
    (same : ∀ row ∈ slot.rows session, selected row = true → change row = row) :
    session' = session := by
  obtain ⟨-, table, tableRows, rfl⟩ := update_eq_ok.mp ran
  have unchanged : table = slot.get session := by
    apply ext_rows
    rw [tableRows, updateRows_of_forall_eq same]
    rfl
  rw [unchanged, slot.put_get]

theorem update_eq_error :
    slot.update selected change session = .error error ↔
      ∃ broken, violated constraints
          (updateRows selected change (slot.rows session)) = some broken ∧
        slot.raises broken = error := by
  simp only [update, bind_eq_error, query_eq_error, query_eq_ok, false_or,
    write_eq_error, pure_eq_error, and_false, exists_false, or_false]
  constructor
  · rintro ⟨_, _, ⟨rfl, rfl⟩, broken, violated, rfl⟩
    exact ⟨broken, violated, rfl⟩
  · rintro ⟨broken, violated, rfl⟩
    exact ⟨_, _, ⟨rfl, rfl⟩, broken, violated, rfl⟩

@[simp] theorem select_eq_ok {found : List α} :
    slot.select selected session = .ok (found, session') ↔
      found = (slot.rows session).filter selected ∧ session' = session :=
  query_eq_ok

@[simp] theorem select_eq_error : slot.select selected session = .error error ↔ False :=
  query_eq_error

/-! ## Frames -/

section Frame

variable {relation : σ → σ → Prop}

variable {added : List α} {selected : α → Bool} {change : α → α} {invariant : σ → Prop}
  {allowed : ε → Prop}

theorem insert_respects (step : ∀ (table : Table α ν constraints) session,
      table.rows = slot.rows session ++ added →
        relation session (slot.put table session)) : Txn.Respects relation (slot.insert added) := by
  intro session value session' ran
  obtain ⟨table, sameRows, rfl⟩ := insert_eq_ok.mp ran
  exact step table session sameRows

theorem update_respects (step : ∀ (table : Table α ν constraints) session,
      table.rows = updateRows selected change (slot.rows session) →
        relation session (slot.put table session)) :
    Txn.Respects relation (slot.update selected change) := by
  intro session value session' ran
  obtain ⟨-, table, sameRows, rfl⟩ := update_eq_ok.mp ran
  exact step table session sameRows

/-- A statement raises what its written rows break. -/
theorem insert_guarded (raises : ∀ session, invariant session → ∀ broken,
      violated constraints (slot.rows session ++ added) = some broken →
        allowed (slot.raises broken))
    (keeps : ∀ (table : Table α ν constraints) session, invariant session →
      table.rows = slot.rows session ++ added → invariant (slot.put table session)) :
    Txn.Guarded invariant allowed (slot.insert added) where
  raises session error holds ran := by
    obtain ⟨broken, violated, rfl⟩ := insert_eq_error.mp ran
    exact raises session holds broken violated
  keeps session value session' holds ran := by
    obtain ⟨table, sameRows, rfl⟩ := insert_eq_ok.mp ran
    exact keeps table session holds sameRows

theorem update_guarded (raises : ∀ session, invariant session → ∀ broken,
      violated constraints (updateRows selected change (slot.rows session)) =
        some broken → allowed (slot.raises broken))
    (keeps : ∀ (table : Table α ν constraints) session, invariant session →
      table.rows = updateRows selected change (slot.rows session) →
        invariant (slot.put table session)) :
    Txn.Guarded invariant allowed (slot.update selected change) where
  raises session error holds ran := by
    obtain ⟨broken, violated, rfl⟩ := update_eq_error.mp ran
    exact raises session holds broken violated
  keeps session value session' holds ran := by
    obtain ⟨-, table, sameRows, rfl⟩ := update_eq_ok.mp ran
    exact keeps table session holds sameRows

end Frame

end Slot

end Relational
