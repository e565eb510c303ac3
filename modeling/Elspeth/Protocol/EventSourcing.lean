import Elspeth.Relational.Edit

/-!
# Keyed rows beside an event log

The general pattern of a store that writes every row change twice: the row in
place, and an event appended to a log.  The two writes are separate statements
of a program, so nothing but the program makes them agree.

A *ledger* is a list of rows and a list of events.  It changes by *moves*: a row
is born together with one event, a row is replaced by its next image with an
event or quietly, or an event is noted that concerns no row.  `Rules` say which
births, replacements and notes are allowed; a *course* is any number of moves.
A program is connected to this picture by exhibiting a course for each of its
runs, after which every statement below is about the program:

* `Course.forall_rows`, `Course.forall_events` and `Course.tracks` — what one move
  keeps, a course keeps, for single rows, for events, and for rows followed through
  their changes of key;
* `Course.told_of_vanished` and `Course.unique_column` — keys that disappear, and
  columns that stay unique beside the key;
* `Course.shows` — replaying the log yields exactly the stored rows;
* `course_of_edits` and `course_of_births` — a batch that first edits many rows and
  then appends all their events is a course.
-/

namespace EventSourcing

open Relational List

variable {α κ π ε : Type}

/-- Rows, and the log beside them. -/
@[ext] structure Ledger (α ε : Type) where
  rows : List α
  events : List ε

/-- Which changes are allowed. -/
structure Rules (α ε : Type) where
  /-- A row may be born with this event. -/
  born : α → ε → Prop
  /-- A row may be replaced, with an event or quietly. -/
  edit : α → α → Option ε → Prop
  /-- An event may be appended that concerns no row. -/
  note : ε → Prop

/-- Everything one set of rules allows, another allows too. -/
structure Rules.Within (rules wider : Rules α ε) : Prop where
  born : ∀ new event, rules.born new event → wider.born new event
  edit : ∀ old new entry, rules.edit old new entry → wider.edit old new entry
  note : ∀ event, rules.note event → wider.note event

section Moves

variable [DecidableEq κ] (key : α → κ) (rules : Rules α ε)

/-- One row change with its log entry. -/
inductive Move : Ledger α ε → Ledger α ε → Prop where
  | birth {rows : List α} {events : List ε} {new : α} {event : ε}
      (fresh : key new ∉ rows.map key) (allowed : rules.born new event) :
      Move ⟨rows, events⟩ ⟨rows ++ [new], events ++ [event]⟩
  | edit {rows : List α} {events : List ε} {old new : α} {entry : Option ε}
      (stored : old ∈ rows) (free : key new = key old ∨ key new ∉ rows.map key)
      (allowed : rules.edit old new entry) :
      Move ⟨rows, events⟩ ⟨replaceRow key old new rows, events ++ entry.toList⟩
  | note {rows : List α} {events : List ε} {event : ε} (allowed : rules.note event) :
      Move ⟨rows, events⟩ ⟨rows, events ++ [event]⟩

/-- Any number of moves. -/
def Course : Ledger α ε → Ledger α ε → Prop :=
  Relation.ReflTransGen (Move key rules)

variable {key rules} {first second third : Ledger α ε}

theorem Course.refl (ledger : Ledger α ε) : Course key rules ledger ledger :=
  Relation.ReflTransGen.refl

theorem Course.trans (left : Course key rules first second)
    (right : Course key rules second third) :
    Course key rules first third :=
  Relation.ReflTransGen.trans left right

theorem Course.head (move : Move key rules first second) (path : Course key rules second third) :
    Course key rules first third :=
  Relation.ReflTransGen.head move path

theorem Course.single (move : Move key rules first second) : Course key rules first second :=
  Relation.ReflTransGen.single move

variable {wider : Rules α ε} {relation : α → α → Prop}

theorem Move.mono (within : rules.Within wider) (move : Move key rules first second) :
    Move key wider first second := by
  cases move with
  | birth fresh allowed => exact .birth fresh (within.born _ _ allowed)
  | edit stored free allowed => exact .edit stored free (within.edit _ _ _ allowed)
  | note allowed => exact .note (within.note _ allowed)

theorem Course.mono (within : rules.Within wider) (path : Course key rules first second) :
    Course key wider first second := by
  induction path with
  | refl => exact Course.refl _
  | tail _ move ih => exact ih.trans (Course.single (move.mono within))

/-! ## What moves keep -/

theorem Move.unique (move : Move key rules first second) (unique : Unique key first.rows) :
    Unique key second.rows := by
  cases move with
  | birth fresh _ =>
    refine unique_append.mpr ⟨unique, nodup_singleton _, ?_⟩
    intro row rowMem other otherMem same
    rw [mem_singleton.mp otherMem] at same
    exact fresh (same ▸ mem_map_of_mem rowMem)
  | edit _ free _ => exact unique.replaceRow free
  | note _ => exact unique

section

variable (path : Course key rules first second)
include path

theorem Course.unique (unique : Unique key first.rows) : Unique key second.rows := by
  induction path with
  | refl => exact unique
  | tail _ move ih => exact move.unique ih

/-- The log only grows. -/
theorem Course.events_prefix : first.events <+: second.events := by
  induction path with
  | refl => exact prefix_rfl
  | tail _ move ih => cases move <;> exact ih.trans (prefix_append _ _)

/-- **Row invariants.** What births establish and replacements keep holds of
every row. -/
theorem Course.forall_rows {good : α → Prop} (born : ∀ new event, rules.born new event → good new)
    (edit : ∀ old new entry, rules.edit old new entry → good old → good new)
    (before : ∀ row ∈ first.rows, good row) : ∀ row ∈ second.rows, good row := by
  induction path with
  | refl => exact before
  | tail _ move ih =>
    cases move with
    | birth _ allowed =>
      intro row member
      rcases mem_append.mp member with kept | added
      · exact ih row kept
      · rw [mem_singleton.mp added]
        exact born _ _ allowed
    | edit stored _ allowed =>
      intro row member
      rcases (mem_replaceRow stored).mp member with rfl | ⟨kept, -⟩
      · exact edit _ _ _ allowed (ih _ stored)
      · exact ih row kept
    | note _ => exact ih

/-- **Event invariants.** What every appended event satisfies holds of the whole log. -/
theorem Course.forall_events {good : ε → Prop}
    (born : ∀ new event, rules.born new event → good event)
    (edit : ∀ old new event, rules.edit old new (some event) → good event)
    (note : ∀ event, rules.note event → good event) (before : ∀ event ∈ first.events, good event) :
    ∀ event ∈ second.events, good event := by
  induction path with
  | refl => exact before
  | tail _ move ih =>
    cases move with
    | birth _ allowed =>
      refine forall_mem_append.mpr ⟨ih, forall_mem_singleton.mpr ?_⟩
      exact born _ _ allowed
    | @edit _ _ old new entry _ _ allowed =>
      refine forall_mem_append.mpr ⟨ih, fun event told => ?_⟩
      rw [Option.mem_toList.mp told] at allowed
      exact edit old new event allowed
    | note allowed =>
      exact forall_mem_append.mpr ⟨ih, forall_mem_singleton.mpr (note _ allowed)⟩

end

/-- **Keys that disappear.** If every replacement keeps its key or tells the key it
gave up, a key that is stored no longer is one the log tells. -/
theorem Course.told_of_vanished (told : ε → κ → Prop) (path : Course key rules first second)
    (edit : ∀ old new entry, rules.edit old new entry →
      key new = key old ∨ ∃ event, entry = some event ∧ told event (key old))
    {name : κ} (stored : name ∈ first.rows.map key) :
    name ∈ second.rows.map key ∨ ∃ event ∈ second.events, told event name := by
  induction path with
  | refl => exact .inl stored
  | tail _ move ih =>
    rcases ih with here | ⟨event, recorded, tells⟩
    · cases move with
      | birth =>
        rw [map_append]
        exact .inl (mem_append_left _ here)
      | note => exact .inl here
      | @edit rows events old new entry oldMem _ allowed =>
        obtain ⟨row, rowMem, rfl⟩ := mem_map.mp here
        by_cases same : key row = key old
        · rcases edit old new entry allowed with kept | ⟨event, rfl, tells⟩
          · refine .inl (mem_map.mpr ⟨new, ?_, kept.trans same.symm⟩)
            exact (mem_replaceRow oldMem).mpr (.inl rfl)
          · exact .inr ⟨event, by simp, same ▸ tells⟩
        · refine .inl (mem_map_of_mem ?_)
          exact (mem_replaceRow oldMem).mpr (.inr ⟨rowMem, same⟩)
    · refine .inr ⟨event, ?_, tells⟩
      cases move <;> exact mem_append_left _ recorded

/-- **Rows that stay.** A row is stored as it is until a replacement of it is allowed. -/
theorem Course.stays_or {moved : Prop} {row : α} (path : Course key rules first second)
    (unique : Unique key first.rows)
    (edit : ∀ new entry, rules.edit row new entry → moved) (stored : row ∈ first.rows) :
    row ∈ second.rows ∨ moved := by
  induction path with
  | refl => exact .inl stored
  | @tail middle _ path move ih =>
    rcases ih with here | gone
    · cases move with
      | birth => exact .inl (mem_append_left _ here)
      | note => exact .inl here
      | @edit rows events old new entry oldMem _ allowed =>
        by_cases same : key row = key old
        · have oldRow : row = old := (Course.unique path unique).eq_of_key here oldMem same
          exact .inr (edit new entry (oldRow ▸ allowed))
        · exact .inl ((mem_replaceRow oldMem).mpr (.inr ⟨here, same⟩))
    · exact .inr gone

/-- The rows followed through their changes: those of before in their places,
each related to what it was, then rows that descend from a birth. -/
def Tracks (relation : α → α → Prop) (born : α → Prop) (before after : List α) : Prop :=
  ∃ kept added, after = kept ++ added ∧ Forall₂ relation before kept ∧
    ∀ row ∈ added, ∃ origin, born origin ∧ relation origin row

section Tracks

variable {relation : α → α → Prop} {born : α → Prop}

theorem Tracks.refl (reflexive : ∀ row, relation row row) (rows : List α) :
    Tracks relation born rows rows :=
  ⟨rows, [], (append_nil rows).symm,
    forall₂_same.mpr fun row _ => reflexive row, by simp⟩

theorem Tracks.trans (transitive : ∀ ⦃a b c⦄, relation a b → relation b c → relation a c)
    {before middle after : List α} (left : Tracks relation born before middle)
    (right : Tracks relation born middle after) : Tracks relation born before after := by
  obtain ⟨kept, added, rfl, keptRelated, addedBorn⟩ := left
  obtain ⟨rows, fresh, rfl, rowsRelated, freshBorn⟩ := right
  -- The rows that were there at first are a leading part of the rows kept last.
  obtain ⟨front, back, rfl, frontRelated, backRelated⟩ := forall₂_append_left rowsRelated
  refine ⟨front, back ++ fresh, append_assoc _ _ _,
    forall₂_comp transitive keptRelated frontRelated, ?_⟩
  intro row member
  rcases mem_append.mp member with inBack | inFresh
  · obtain ⟨previous, previousMem, step⟩ := mem_of_forall₂_right backRelated inBack
    obtain ⟨origin, originBorn, related⟩ := addedBorn previous previousMem
    exact ⟨origin, originBorn, transitive related step⟩
  · exact freshBorn row inFresh

/-- Where neither changes nor births establish a property, not more rows have it. -/
theorem Tracks.countP_le {counts : α → Bool} {before after : List α}
    (tracks : Tracks (fun old new => counts new = true → counts old = true)
      (fun new => counts new = false) before after) :
    after.countP counts ≤ before.countP counts := by
  obtain ⟨kept, added, rfl, related, origins⟩ := tracks
  have none : added.countP counts = 0 := countP_eq_zero.mpr fun row member counted => by
    obtain ⟨origin, born, kept⟩ := origins row member
    exact Bool.false_ne_true (born.symm.trans (kept counted))
  rw [countP_append, none, Nat.add_zero]
  clear origins none
  induction related with
  | nil => exact le_rfl
  | @cons old new _ _ keeps _ ih =>
    by_cases counted : counts new = true
    · simpa [counted, keeps counted] using ih
    · rw [countP_cons_of_neg counted]
      exact ih.trans (sublist_cons_self _ _).countP_le

end Tracks

theorem Move.tracks (reflexive : ∀ row, relation row row)
    (edit : ∀ old new entry, rules.edit old new entry → relation old new)
    (unique : Unique key first.rows) (move : Move key rules first second) :
    Tracks relation (fun new => ∃ event, rules.born new event) first.rows second.rows := by
  cases move with
  | @birth rows events new event fresh allowed =>
    refine ⟨rows, [new], rfl, forall₂_same.mpr fun row _ => reflexive row, ?_⟩
    intro row member
    rw [mem_singleton.mp member]
    exact ⟨new, ⟨event, allowed⟩, reflexive new⟩
  | @edit rows events old new entry stored free allowed =>
    refine ⟨replaceRow key old new rows, [], (append_nil _).symm, ?_, by simp⟩
    refine forall₂_map_right_iff.mpr (forall₂_same.mpr fun row rowMem => ?_)
    by_cases same : key row = key old
    · rw [unique.eq_of_key rowMem stored same]
      simpa using edit old new entry allowed
    · simpa [same] using reflexive row
  | note _ => exact Tracks.refl reflexive _

/-- **Rows followed through a path.** A preorder that every replacement respects
relates each row to what became of it, and each new row to its birth. -/
theorem Course.tracks (reflexive : ∀ row, relation row row)
    (transitive : ∀ ⦃a b c⦄, relation a b → relation b c → relation a c)
    (edit : ∀ old new entry, rules.edit old new entry → relation old new)
    (unique : Unique key first.rows) (path : Course key rules first second) :
    Tracks relation (fun new => ∃ event, rules.born new event) first.rows second.rows := by
  induction path with
  | refl => exact Tracks.refl reflexive _
  | tail path move ih =>
    exact ih.trans transitive
      (move.tracks reflexive edit (Course.unique path unique))

/-! ## Columns that replacements keep -/

section Columns

variable {γ : Type} {column : α → γ}

theorem Course.tracks_column (path : Course key rules first second)
    (unique : Unique key first.rows)
    (edit : ∀ old new entry, rules.edit old new entry → column new = column old) :
    Tracks (fun old new => column new = column old) (fun new => ∃ event, rules.born new event)
      first.rows second.rows :=
  path.tracks (fun _ => rfl) (fun _ _ _ left right => right.trans left) edit unique

/-- Where nothing is born, a column that replacements keep has the same values. -/
theorem Course.column_of_unborn (column : α → γ) (path : Course key rules first second)
    (unique : Unique key first.rows) (unborn : ∀ new event, ¬ rules.born new event)
    (edit : ∀ old new entry, rules.edit old new entry → column new = column old) :
    second.rows.map column = first.rows.map column := by
  obtain ⟨kept, added, rows, related, origins⟩ := path.tracks_column unique edit
  have none : added = [] := by
    refine eq_nil_iff_forall_not_mem.mpr fun row member => ?_
    obtain ⟨origin, ⟨event, born⟩, -⟩ := origins row member
    exact unborn origin event born
  rw [rows, none, append_nil]
  exact map_eq_of_forall₂ (fun _ _ same => same) related

/-- **A second unique column.** Where replacements keep the key and the column, and
every birth has a known key or a new column value, with one key per value, the
column stays unique beside the key. -/
theorem Course.unique_column (path : Course key rules first second)
    (unique : Unique key first.rows) (before : Unique column first.rows)
    (edit : ∀ old new entry, rules.edit old new entry →
      column new = column old ∧ key new = key old)
    (born : ∀ new event, rules.born new event →
      key new ∈ first.rows.map key ∨ column new ∉ first.rows.map column)
    (siblings : ∀ left right leftEvent rightEvent, rules.born left leftEvent →
      rules.born right rightEvent → column left = column right → key left = key right) :
    Unique column second.rows := by
  have tracked : Tracks (fun old new => column new = column old ∧ key new = key old)
      (fun new => ∃ event, rules.born new event) first.rows second.rows :=
    path.tracks (fun _ => ⟨rfl, rfl⟩)
      (fun _ _ _ left right => ⟨right.1.trans left.1, right.2.trans left.2⟩) edit unique
  obtain ⟨kept, added, rows, related, origins⟩ := tracked
  have after := Course.unique path unique
  rw [rows] at after ⊢
  obtain ⟨-, addedKeys, apart⟩ := unique_append.mp after
  have columns : kept.map column = first.rows.map column :=
    map_eq_of_forall₂ (fun _ _ same => same.1) related
  have keys : kept.map key = first.rows.map key :=
    map_eq_of_forall₂ (fun _ _ same => same.2) related
  refine unique_append.mpr ⟨?_, ?_, ?_⟩
  · unfold Relational.Unique
    rwa [columns]
  · refine addedKeys.nodup.map_on fun left leftMem right rightMem same => ?_
    obtain ⟨leftOrigin, ⟨leftEvent, leftBorn⟩, leftColumn, leftKey⟩ := origins left leftMem
    obtain ⟨rightOrigin, ⟨rightEvent, rightBorn⟩, rightColumn, rightKey⟩ := origins right rightMem
    refine addedKeys.eq_of_key leftMem rightMem ?_
    rw [leftKey, rightKey]
    exact siblings _ _ _ _ leftBorn rightBorn (by rw [← leftColumn, ← rightColumn, same])
  · intro row rowMem new newMem same
    obtain ⟨origin, ⟨event, originBorn⟩, originColumn, originKey⟩ := origins new newMem
    rcases born origin event originBorn with known | free
    · rw [← keys, ← originKey] at known
      obtain ⟨other, otherMem, otherKey⟩ := mem_map.mp known
      exact apart other otherMem new newMem otherKey
    · refine free ?_
      rw [← columns, ← originColumn, ← same]
      exact mem_map_of_mem rowMem

end Columns

/-! ## Replaying the log -/

/-- What an event says: nothing about any row, or the image stored under a key,
possibly in the place of another key. -/
inductive Effect (κ π : Type) where
  | note
  | put (previous : Option κ) (key : κ) (image : π)

/-- The view after one event. -/
def Effect.apply (view : κ → Option π) : Effect κ π → κ → Option π
  | .note => view
  | .put previous key image => fun name =>
    if name = key then some image else if previous = some name then none else view name

/-- Fold the log, in recording order, from the empty view. -/
def replay (effect : ε → Effect κ π) (events : List ε) : κ → Option π :=
  events.foldl (fun view event => (effect event).apply view) fun _ => none

theorem replay_append_singleton (effect : ε → Effect κ π) (events : List ε) (event : ε) :
    replay effect (events ++ [event]) = (effect event).apply (replay effect events) := by
  unfold replay
  rw [foldl_append]
  rfl

/-- A view shows exactly the stored rows: their keys, each with its image. -/
def Shows (key : α → κ) (image : α → π) (rows : List α) (view : κ → Option π) : Prop :=
  ∀ name value, view name = some value ↔ ∃ row ∈ rows, key row = name ∧ image row = value

/-- Every allowed change is logged as what it does to the rows. -/
structure Logs (key : α → κ) (image : α → π) (effect : ε → Effect κ π) (rules : Rules α ε) :
    Prop where
  born : ∀ new event, rules.born new event → effect event = .put none (key new) (image new)
  edit : ∀ old new event, rules.edit old new (some event) →
    ∃ previous, effect event = .put previous (key new) (image new) ∧
      (previous = some (key old) ∨ previous = none ∧ key new = key old)
  quiet : ∀ old new, rules.edit old new none → key new = key old ∧ image new = image old
  note : ∀ event, rules.note event → effect event = .note

section Replay

variable {image : α → π} {effect : ε → Effect κ π}

/-- A replaced row, seen through a view. -/
theorem Shows.replace {rows : List α} {view : κ → Option π} {old new : α}
    {previous : Option κ} (shows : Shows key image rows view) (stored : old ∈ rows)
    (free : key new = key old ∨ key new ∉ rows.map key)
    (link : previous = some (key old) ∨ previous = none ∧ key new = key old) :
    Shows key image (replaceRow key old new rows)
      ((Effect.put previous (key new) (image new)).apply view) := by
  intro name value
  simp only [Effect.apply, mem_replaceRow stored]
  by_cases atNew : name = key new
  · rw [if_pos atNew]
    constructor
    · intro same
      exact ⟨new, .inl rfl, atNew.symm, Option.some.inj same⟩
    · rintro ⟨row, rfl | ⟨rowMem, apart⟩, sameKey, sameImage⟩
      · rw [sameImage]
      · -- Another stored row cannot carry the new key.
        rw [atNew] at sameKey
        rcases free with kept | absent
        · exact absurd (sameKey.trans kept) apart
        · exact absurd (sameKey ▸ mem_map_of_mem rowMem) absent
  · rw [if_neg atNew]
    have gone : previous = some name ∨ name ≠ key old := by
      by_cases atOld : name = key old
      · rcases link with linked | ⟨-, same⟩
        · exact .inl (linked.trans (by rw [atOld]))
        · exact absurd (atOld.trans same.symm) atNew
      · exact .inr atOld
    by_cases linked : previous = some name
    · rw [if_pos linked]
      refine ⟨fun impossible => absurd impossible (by simp), ?_⟩
      have atOld : name = key old := by
        rcases link with same | ⟨none, -⟩
        · exact Option.some.inj (linked.symm.trans same)
        · rw [none] at linked
          cases linked
      rintro ⟨row, rfl | ⟨-, apart⟩, sameKey, -⟩
      · exact absurd sameKey.symm atNew
      · exact absurd (sameKey.trans atOld) apart
    · rw [if_neg linked, shows name value]
      have apart : name ≠ key old := gone.resolve_left linked
      constructor
      · rintro ⟨row, rowMem, sameKey, sameImage⟩
        exact ⟨row, .inr ⟨rowMem, sameKey ▸ apart⟩, sameKey, sameImage⟩
      · rintro ⟨row, rfl | ⟨rowMem, -⟩, sameKey, sameImage⟩
        · exact absurd sameKey.symm atNew
        · exact ⟨row, rowMem, sameKey, sameImage⟩

theorem Move.shows (logs : Logs key image effect rules) (unique : Unique key first.rows)
    (move : Move key rules first second)
    (before : Shows key image first.rows (replay effect first.events)) :
    Shows key image second.rows (replay effect second.events) := by
  cases move with
  | @birth rows events new event fresh allowed =>
    rw [replay_append_singleton, logs.born new event allowed]
    intro name value
    simp only [Effect.apply, reduceCtorEq, if_false, mem_append, mem_singleton]
    by_cases atNew : name = key new
    · rw [if_pos atNew]
      constructor
      · intro same
        exact ⟨new, .inr rfl, atNew.symm, Option.some.inj same⟩
      · rintro ⟨row, rowMem | rfl, sameKey, sameImage⟩
        · exact absurd (atNew ▸ sameKey ▸ mem_map_of_mem rowMem) fresh
        · rw [sameImage]
    · rw [if_neg atNew, before name value]
      constructor
      · rintro ⟨row, rowMem, same⟩
        exact ⟨row, .inl rowMem, same⟩
      · rintro ⟨row, rowMem | rfl, sameKey, sameImage⟩
        · exact ⟨row, rowMem, sameKey, sameImage⟩
        · exact absurd sameKey.symm atNew
  | @edit rows events old new entry stored free allowed =>
    cases entry with
    | some event =>
      obtain ⟨previous, said, link⟩ := logs.edit old new event allowed
      change Shows key image (replaceRow key old new rows) (replay effect (events ++ [event]))
      rw [replay_append_singleton, said]
      exact before.replace stored free link
    | none =>
      obtain ⟨sameKey, sameImage⟩ := logs.quiet old new allowed
      change Shows key image (replaceRow key old new rows) (replay effect (events ++ []))
      rw [append_nil]
      -- A quiet edit is invisible: the view already shows this image.
      have shown : replay effect events (key old) = some (image old) :=
        (before (key old) (image old)).mpr ⟨old, stored, rfl, rfl⟩
      have replaced := before.replace stored free (.inr ⟨rfl, sameKey⟩)
      have same : (Effect.put none (key new) (image new)).apply (replay effect events) =
          replay effect events := by
        funext name
        by_cases atOld : name = key old
        · simp [Effect.apply, sameKey, sameImage, atOld, shown]
        · simp [Effect.apply, sameKey, atOld]
      rwa [same] at replaced
  | @note rows events event allowed =>
    rw [replay_append_singleton, logs.note event allowed]
    exact before

/-- **The log agrees with the rows** at the end of every path on which it agreed
at the start. -/
theorem Course.shows (logs : Logs key image effect rules) (unique : Unique key first.rows)
    (path : Course key rules first second)
    (before : Shows key image first.rows (replay effect first.events)) :
    Shows key image second.rows (replay effect second.events) := by
  induction path with
  | refl => exact before
  | tail path move ih => exact move.shows logs (Course.unique path unique) ih

end Replay

/-! ## Batches -/

/-- One planned replacement with its log entry. -/
structure Planned (α ε : Type) where
  old : α
  new : α
  entry : Option ε

def Planned.pair (planned : Planned α ε) : α × α := (planned.old, planned.new)

/-- A batch that edits many rows and then appends all their events is a path, when
each new key is free at its turn. -/
theorem course_of_edits {rows : List α} {events : List ε} {plan : List (Planned α ε)}
    (unique : Unique key rows) (edits : Edits key (plan.map Planned.pair) rows)
    (free : Rekeyable (rows.map key) (keyChanges key (plan.map Planned.pair)))
    (allowed : ∀ planned ∈ plan, rules.edit planned.old planned.new planned.entry) :
    Course key rules ⟨rows, events⟩
      ⟨editRows key (plan.map Planned.pair) rows,
        events ++ plan.flatMap fun planned => planned.entry.toList⟩ := by
  induction plan generalizing rows events with
  | nil =>
    simp only [map_nil, editRows_nil, flatMap_nil, append_nil]
    exact Course.refl _
  | cons planned plan ih =>
    obtain ⟨freeNow, freeLater⟩ := free
    have stored : planned.old ∈ rows := edits.stored planned.pair mem_cons_self
    obtain ⟨split, restEdits⟩ := editRows_cons unique edits freeNow
    rw [flatMap_cons, ← append_assoc]
    refine Course.head (.edit stored freeNow (allowed planned mem_cons_self)) ?_
    change Course key rules _ ⟨editRows key ((planned.old, planned.new) :: _) rows, _⟩
    rw [split]
    exact ih (unique.replaceRow freeNow) restEdits (by rw [map_replaceRow]; exact freeLater)
      fun other member => allowed other (mem_cons_of_mem _ member)

/-- A batch that inserts many rows and then appends all their events is a course. -/
theorem course_of_births {rows added : List α} {events told : List ε}
    (born : Forall₂ rules.born added told) (unique : Unique key (rows ++ added)) :
    Course key rules ⟨rows, events⟩ ⟨rows ++ added, events ++ told⟩ := by
  induction born generalizing rows events with
  | nil =>
    rw [append_nil, append_nil]
    exact Course.refl _
  | @cons new event added told allowed _ ih =>
    have rowsSplit : rows ++ new :: added = rows ++ [new] ++ added := by simp
    have eventsSplit : events ++ event :: told = events ++ [event] ++ told := by simp
    rw [rowsSplit] at unique ⊢
    rw [eventsSplit]
    have fresh : key new ∉ rows.map key := by
      obtain ⟨now, -, -⟩ := unique_append.mp unique
      obtain ⟨-, -, apart⟩ := unique_append.mp now
      intro taken
      obtain ⟨row, rowMem, same⟩ := mem_map.mp taken
      exact apart row rowMem new (mem_singleton.mpr rfl) same
    exact Course.head (.birth fresh allowed) (ih unique)

end Moves

end EventSourcing
