import Elspeth.Semantics.Traced
import Mathlib.Data.List.Perm.Subperm
import Mathlib.Data.List.Sort

/-!
# Relations stored under integrity constraints

A database table is a list of rows together with a proof that the rows satisfy
the table's declared constraints.  A statement that would break a constraint
does not produce a table: the engine reports the violated constraint instead.
Everything proved about a `Table` may therefore use its constraints as facts,
and no writer has to re-establish them.

The constraints are the ones a relational schema offers:

* `Unique key` — a primary key or `UNIQUE` constraint;
* `UniqueWhere filter key` — a partial unique index, also the reading of a
  `UNIQUE` constraint over a nullable column, where `NULL`s never collide;
* `Check ok` — a row-level `CHECK`.

`updateRows` is `UPDATE … WHERE …` on the row list, and `replaceRow` its
one-row form on a keyed table.  Rows keep their position.
-/

namespace Relational

open List

variable {α κ : Type}

/-! ## Constraints -/

/-- A primary key or `UNIQUE` constraint: no two rows share the key. -/
def Unique (key : α → κ) (rows : List α) : Prop :=
  (rows.map key).Nodup

/-- A partial unique index: no two rows selected by `filter` share the key. -/
def UniqueWhere (filter : α → Bool) (key : α → κ) (rows : List α) : Prop :=
  Unique key (rows.filter filter)

/-- A row-level `CHECK` constraint. -/
def Check (ok : α → Prop) (rows : List α) : Prop :=
  ∀ row ∈ rows, ok row

instance Unique.decidable [DecidableEq κ] (key : α → κ) (rows : List α) :
    Decidable (Unique key rows) :=
  inferInstanceAs (Decidable (rows.map key).Nodup)

instance UniqueWhere.decidable [DecidableEq κ] (filter : α → Bool)
    (key : α → κ) (rows : List α) : Decidable (UniqueWhere filter key rows) :=
  inferInstanceAs (Decidable (Unique key (rows.filter filter)))

instance Check.decidable (ok : α → Prop) [DecidablePred ok] (rows : List α) :
    Decidable (Check ok rows) :=
  inferInstanceAs (Decidable (∀ row ∈ rows, ok row))

variable {key : α → κ} {rows : List α} {selected : α → Bool} {change : α → α}

/-- A unique key identifies its row. -/
theorem Unique.eq_of_key (unique : Unique key rows) {left right : α} (leftMem : left ∈ rows)
    (rightMem : right ∈ rows) (equal : key left = key right) : left = right :=
  inj_on_of_nodup_map unique leftMem rightMem equal

@[simp] theorem unique_nil (key : α → κ) : Unique key [] := nodup_nil

theorem Unique.nodup (unique : Unique key rows) : rows.Nodup :=
  Nodup.of_map key unique

/-- Appending rows keeps a unique key exactly when the new keys are pairwise
distinct and none is already taken. -/
theorem unique_append {added : List α} :
    Unique key (rows ++ added) ↔
      Unique key rows ∧ Unique key added ∧
        ∀ row ∈ rows, ∀ new ∈ added, key row ≠ key new := by
  unfold Unique
  rw [map_append, nodup_append]
  constructor
  · rintro ⟨old, new, apart⟩
    refine ⟨old, new, fun row rowMem other otherMem equal => ?_⟩
    exact apart _ (mem_map_of_mem rowMem) _ (mem_map_of_mem otherMem) equal
  · rintro ⟨old, new, apart⟩
    refine ⟨old, new, fun left leftMem right rightMem equal => ?_⟩
    obtain ⟨row, rowMem, rfl⟩ := mem_map.mp leftMem
    obtain ⟨other, otherMem, rfl⟩ := mem_map.mp rightMem
    exact apart row rowMem other otherMem equal

/-! ## Tables -/

/-- A named, decidable condition on the rows of a table. -/
structure Constraint (α ν : Type) where
  /-- What the engine reports when the condition fails. -/
  label : ν
  /-- The condition on the whole row list. -/
  holds : List α → Prop
  /-- Constraints are evaluated by the engine at every write. -/
  decidable : DecidablePred holds

namespace Constraint

variable {ν : Type}

instance (constraint : Constraint α ν) (rows : List α) :
    Decidable (constraint.holds rows) :=
  constraint.decidable rows

/-- The first declared constraint that `rows` breaks, if any. -/
def violated (constraints : List (Constraint α ν)) (rows : List α) : Option ν :=
  (constraints.find? fun constraint => decide (¬ constraint.holds rows)).map label

variable {constraints : List (Constraint α ν)} {rows : List α}

theorem violated_eq_none :
    violated constraints rows = none ↔
      ∀ constraint ∈ constraints, constraint.holds rows := by
  simp [violated]

/-- A reported label is the label of a declared constraint that fails. -/
theorem violated_eq_some {broken : ν} (report : violated constraints rows = some broken) :
    ∃ constraint ∈ constraints, constraint.label = broken ∧
      ¬ constraint.holds rows := by
  obtain ⟨constraint, found, rfl⟩ := Option.map_eq_some_iff.mp report
  refine ⟨constraint, mem_of_find?_eq_some found, rfl, ?_⟩
  simpa using find?_some found

end Constraint

/-- A relation together with the proof that it satisfies its constraints. -/
structure Table (α ν : Type) (constraints : List (Constraint α ν)) where
  /-- The stored rows, in physical order. -/
  rows : List α
  /-- The declared constraints hold of the stored rows. -/
  valid : Constraint.violated constraints rows = none

namespace Table

variable {ν : Type} {constraints : List (Constraint α ν)}

/-- Store a new row list: the engine keeps it only if every constraint holds. -/
def store (constraints : List (Constraint α ν)) (rows : List α) :
    Except ν (Table α ν constraints) :=
  match valid : Constraint.violated constraints rows with
  | none => .ok ⟨rows, valid⟩
  | some broken => .error broken

theorem holds (table : Table α ν constraints) (constraint : Constraint α ν)
    (declared : constraint ∈ constraints) : constraint.holds table.rows :=
  Constraint.violated_eq_none.mp table.valid constraint declared

theorem ext_rows {left right : Table α ν constraints}
    (equal : left.rows = right.rows) : left = right := by
  cases left
  cases equal
  rfl

variable {rows : List α}

theorem store_eq_ok {table : Table α ν constraints} :
    store constraints rows = .ok table ↔ table.rows = rows := by
  unfold store
  split
  · constructor
    · rintro ⟨⟩
      rfl
    · rintro rfl
      rfl
  next broken report =>
    constructor
    · rintro ⟨⟩
    · rintro rfl
      exact absurd table.valid (by rw [report]; exact Option.some_ne_none _)

theorem store_eq_error {broken : ν} :
    store constraints rows = .error broken ↔
      Constraint.violated constraints rows = some broken := by
  unfold store
  split
  next valid => simp [valid]
  next found report => simp [report]

end Table

/-! ## `UPDATE … WHERE …` -/

/-- Apply `change` to every row the predicate selects. -/
def updateRows (selected : α → Bool) (change : α → α) (rows : List α) : List α :=
  rows.map fun row => if selected row then change row else row

theorem mem_updateRows {row : α} :
    row ∈ updateRows selected change rows ↔
      (∃ old ∈ rows, selected old = true ∧ change old = row) ∨
        (row ∈ rows ∧ selected row = false) := by
  unfold updateRows
  rw [mem_map]
  constructor
  · rintro ⟨old, oldMem, rfl⟩
    by_cases hit : selected old = true
    · exact Or.inl ⟨old, oldMem, hit, by simp [hit]⟩
    · exact Or.inr ⟨by simpa [hit] using oldMem, by simp [hit]⟩
  · rintro (⟨old, oldMem, hit, rfl⟩ | ⟨rowMem, miss⟩)
    · exact ⟨old, oldMem, by simp [hit]⟩
    · exact ⟨row, rowMem, by simp [miss]⟩

/-- A statement that selects nothing changes nothing. -/
theorem updateRows_of_forall_not (none : ∀ row ∈ rows, selected row = false) :
    updateRows selected change rows = rows := by
  refine (map_congr_left fun row rowMem => ?_).trans (map_id _)
  simp [none row rowMem]

/-- A statement that writes back what it read changes nothing. -/
theorem updateRows_of_forall_eq (same : ∀ row ∈ rows, selected row = true → change row = row) :
    updateRows selected change rows = rows := by
  refine (map_congr_left fun row rowMem => ?_).trans (map_id _)
  by_cases hit : selected row = true
  · simp [hit, same row rowMem hit]
  · simp [hit]

theorem updateRows_congr {selected' : α → Bool} {change' : α → α}
    (sameRows : ∀ row ∈ rows, selected row = selected' row)
    (sameChange : ∀ row ∈ rows, selected row = true → change row = change' row) :
    updateRows selected change rows = updateRows selected' change' rows := by
  refine map_congr_left fun row rowMem => ?_
  by_cases hit : selected row = true
  · simp [hit, ← sameRows row rowMem, sameChange row rowMem hit]
  · simp [hit, ← sameRows row rowMem]

/-- An update that leaves a column alone leaves its list of values alone. -/
theorem map_updateRows {β : Type} {column : α → β}
    (kept : ∀ row, column (change row) = column row) (rows : List α) :
    (updateRows selected change rows).map column = rows.map column := by
  unfold updateRows
  rw [map_map]
  refine map_congr_left fun row _ => ?_
  by_cases hit : selected row = true <;> simp [hit, kept]

/-! ## Rows side by side

Rows keep their position, so a change of a table is a list of new rows beside
the list of old ones. -/

section SideBySide

theorem forall₂_updateRows {relation : α → α → Prop} {selected : α → Bool} {change : α → α}
    {rows : List α}
    (kept : ∀ row ∈ rows, selected row = false → relation row row)
    (changed : ∀ row ∈ rows, selected row = true → relation row (change row)) :
    Forall₂ relation rows (updateRows selected change rows) := by
  refine forall₂_map_right_iff.mpr (forall₂_same.mpr fun row rowMem => ?_)
  by_cases hit : selected row = true
  · simpa [hit] using changed row rowMem hit
  · simpa [hit] using kept row rowMem (by simpa using hit)

variable {β γ : Type} {relation : α → β → Prop}

/-- Two changes in a row. -/
theorem forall₂_comp {next : β → γ → Prop} {both : α → γ → Prop}
    (comp : ∀ ⦃a b c⦄, relation a b → next b c → both a c) {left : List α} {middle : List β}
      {right : List γ}
    (first : Forall₂ relation left middle) (second : Forall₂ next middle right) :
    Forall₂ both left right := by
  induction first generalizing right with
  | nil =>
    rw [forall₂_nil_left_iff.mp second]
    exact .nil
  | cons step _ ih =>
    obtain ⟨last, rest, nextStep, tail, rfl⟩ := forall₂_cons_left_iff.mp second
    exact .cons (comp step nextStep) (ih tail)

/-- A change of an appended list splits where the list does. -/
theorem forall₂_append_left {front back : List α} {rows : List β}
    (related : Forall₂ relation (front ++ back) rows) :
    ∃ newFront newBack, rows = newFront ++ newBack ∧
      Forall₂ relation front newFront ∧ Forall₂ relation back newBack := by
  refine ⟨rows.take front.length, rows.drop front.length,
    (take_append_drop front.length rows).symm, ?_, ?_⟩
  · have taken := forall₂_take front.length related
    rwa [take_left] at taken
  · have dropped := forall₂_drop front.length related
    rwa [drop_left] at dropped

variable {before items : List α} {after : List β} {ε : Type}

theorem mem_of_forall₂_left (related : Forall₂ relation before after) {row : α}
    (member : row ∈ before) : ∃ new ∈ after, relation row new := by
  induction related with
  | nil => cases member
  | cons step _ ih =>
    rcases mem_cons.mp member with rfl | inRest
    · exact ⟨_, mem_cons_self, step⟩
    · obtain ⟨new, newMem, found⟩ := ih inRest
      exact ⟨new, mem_cons_of_mem _ newMem, found⟩

theorem mem_of_forall₂_right (related : Forall₂ relation before after) {row : β}
    (member : row ∈ after) : ∃ old ∈ before, relation old row :=
  mem_of_forall₂_left related.flip member

/-- A column that the change keeps has the same list of values. -/
theorem map_eq_of_forall₂ {column : α → γ} {name : β → γ}
    (kept : ∀ old new, relation old new → name new = column old)
    (related : Forall₂ relation before after) : after.map name = before.map column := by
  induction related with
  | nil => rfl
  | cons step _ ih => rw [map_cons, map_cons, ih, kept _ _ step]

/-- Collecting the results of a fallible function succeeds with one result per item. -/
theorem mapM_eq_ok {f : α → Except ε β} {results : List β} :
    items.mapM f = .ok results ↔
      Forall₂ (fun item result => f item = .ok result) items results := by
  induction items generalizing results with
  | nil =>
    constructor
    · intro collected
      obtain rfl : [] = results := Except.ok.inj collected
      exact .nil
    · rintro ⟨⟩
      rfl
  | cons item items ih =>
    rw [mapM_cons]
    constructor
    · intro collected
      obtain ⟨result, first, collected⟩ := Semantics.bind_eq_ok.mp collected
      obtain ⟨results, rest, collected⟩ := Semantics.bind_eq_ok.mp collected
      cases collected
      exact .cons first (ih.mp rest)
    · rintro ⟨⟩
      next first rest =>
        rw [first, ih.mpr rest]
        rfl

/-- Collecting succeeds when every item has a result, and what holds of each holds of all. -/
theorem mapM_ok_of_forall {f : α → Except ε β}
    (each : ∀ item ∈ items, ∃ result, f item = .ok result ∧ relation item result) :
    ∃ results, items.mapM f = .ok results ∧ Forall₂ relation items results := by
  induction items with
  | nil => exact ⟨[], rfl, .nil⟩
  | cons item items ih =>
    obtain ⟨result, ran, related⟩ := each item mem_cons_self
    obtain ⟨results, collected, all⟩ := ih fun other listed => each other (mem_cons_of_mem _ listed)
    refine ⟨result :: results, ?_, .cons related all⟩
    rw [mapM_cons, ran, collected]
    rfl

end SideBySide

/-! ## One-row replacement -/

section Replace

variable [DecidableEq κ]

/-- Replace the row carrying `old`'s key by `new`, in place. -/
def replaceRow (key : α → κ) (old new : α) (rows : List α) : List α :=
  updateRows (fun row => decide (key row = key old)) (fun _ => new) rows

variable {key : α → κ} {rows : List α}

theorem mem_replaceRow {old new row : α} (oldMem : old ∈ rows) :
    row ∈ replaceRow key old new rows ↔
      row = new ∨ (row ∈ rows ∧ key row ≠ key old) := by
  unfold replaceRow
  rw [mem_updateRows]
  constructor
  · rintro (⟨_, -, -, rfl⟩ | ⟨rowMem, miss⟩)
    · exact Or.inl rfl
    · exact Or.inr ⟨rowMem, by simpa using miss⟩
  · rintro (rfl | ⟨rowMem, apart⟩)
    · exact Or.inl ⟨old, oldMem, by simp, rfl⟩
    · exact Or.inr ⟨rowMem, by simpa using apart⟩

/-- A replacement, seen through a projection that keeps the key. -/
theorem map_replaceRow_of_key {β : Type} (column : α → β) (name : β → κ)
    (kept : ∀ row, name (column row) = key row) (old new : α) (rows : List α) :
    (replaceRow key old new rows).map column =
      replaceRow name (column old) (column new) (rows.map column) := by
  unfold replaceRow updateRows
  rw [map_map, map_map]
  refine map_congr_left fun row _ => ?_
  by_cases same : key row = key old <;> simp [kept, same]

/-- A statement keyed on a unique column that selects `old` replaces exactly
`old`. -/
theorem updateRows_eq_replaceRow {selected : α → Bool} {change : α → α} {old : α}
    (unique : Unique key rows) (oldMem : old ∈ rows) (hit : selected old = true)
    (keyed : ∀ row ∈ rows, selected row = true → key row = key old) :
    updateRows selected change rows = replaceRow key old (change old) rows := by
  refine updateRows_congr (fun row rowMem => ?_) fun row rowMem selectedRow => ?_
  · by_cases selectedRow : selected row = true
    · simp [selectedRow, keyed row rowMem selectedRow]
    · have apart : key row ≠ key old := by
        intro equal
        rw [unique.eq_of_key rowMem oldMem equal] at selectedRow
        exact selectedRow hit
      simp [selectedRow, apart]
  · rw [unique.eq_of_key rowMem oldMem (keyed row rowMem selectedRow)]

end Replace

/-! ## Row counts of keyed statements -/

/-- With a unique key, a keyed statement selects at most one row, and its row
count says whether it selected one. -/
theorem countP_eq_one_iff (unique : Unique key rows) (keyed : ∀ left ∈ rows, ∀ right ∈ rows,
      selected left = true → selected right = true → key left = key right) :
    rows.countP selected = 1 ↔ ∃ row ∈ rows, selected row = true := by
  constructor
  · intro one
    have positive : 0 < rows.countP selected := by omega
    exact countP_pos_iff.mp positive
  · rintro ⟨row, rowMem, hit⟩
    have atLeast : 0 < rows.countP selected := countP_pos_iff.mpr ⟨row, rowMem, hit⟩
    have atMost : rows.countP selected ≤ 1 := by
      rw [countP_eq_length_filter]
      have subset : (rows.filter selected) ⊆ [row] := by
        intro other otherMem
        obtain ⟨otherRow, otherHit⟩ := mem_filter.mp otherMem
        have equal : other = row :=
          unique.eq_of_key otherRow rowMem (keyed other otherRow row rowMem otherHit hit)
        simp [equal]
      exact (Nodup.subperm (unique.nodup.filter selected) subset).length_le
    omega

/-- A keyed statement changes no row or exactly one. -/
theorem countP_le_one (unique : Unique key rows) (keyed : ∀ left ∈ rows, ∀ right ∈ rows,
      selected left = true → selected right = true → key left = key right) :
    rows.countP selected = 0 ∨ rows.countP selected = 1 := by
  by_cases hit : ∃ row ∈ rows, selected row = true
  · exact Or.inr ((countP_eq_one_iff unique keyed).mpr hit)
  · refine Or.inl (countP_eq_zero.mpr fun row rowMem selectedRow => hit ⟨row, rowMem, selectedRow⟩)

end Relational
