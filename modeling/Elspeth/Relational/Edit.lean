import Elspeth.Relational.Statement

/-!
# Editing keyed rows in place

A batch of one-row statements, each naming its row by key, may also change
keys.  Two views of such a batch are connected here:

* the *pointwise* view `editRows`: every row is replaced by its new image, all
  at once and in place;
* the *sequential* view, in which statement after statement runs and each new
  key must be free at the moment it is written.

`Rekeyable` is the sequential condition on keys alone.  It is decidable, it
does not mention the rows, and edits that keep their key drop out of it
(`rekeyable_filter`), so a batch of key changes can be interleaved freely with
edits that change no key.  `executeMany_edits` says that a batch whose row
count equals its length performed the pointwise edit and met the condition.
-/

namespace Relational

open List

variable {α β κ : Type} [DecidableEq κ]

/-! ## Keys, one after another -/

/-- Replace one key by another, in place. -/
def rekey (old new : κ) (keys : List κ) : List κ :=
  keys.map fun key => if key = old then new else key

@[simp] theorem rekey_self (old : κ) (keys : List κ) : rekey old old keys = keys := by
  refine (map_congr_left fun key _ => ?_).trans (map_id _)
  by_cases same : key = old <;> simp [same]

theorem map_replaceRow (key : α → κ) (old new : α) (rows : List α) :
    (replaceRow key old new rows).map key = rekey (key old) (key new) (rows.map key) := by
  unfold replaceRow updateRows rekey
  rw [map_map, map_map]
  refine map_congr_left fun row _ => ?_
  by_cases same : key row = key old <;> simp [same]

/-- Replacing one key by itself or by a free one keeps keys distinct. -/
theorem nodup_rekey {old new : κ} {keys : List κ} (distinct : keys.Nodup)
    (free : new = old ∨ new ∉ keys) : (rekey old new keys).Nodup := by
  rcases free with rfl | free
  · rwa [rekey_self]
  · refine distinct.map_on fun left leftMem right rightMem same => ?_
    by_cases leftOld : left = old <;> by_cases rightOld : right = old <;>
      simp_all [eq_comm]

variable {key : α → κ} {old new row : α} {rows : List α} {pairs others : List (α × α)}

theorem Unique.replaceRow (unique : Unique key rows)
    (free : key new = key old ∨ key new ∉ rows.map key) :
    Unique key (replaceRow key old new rows) := by
  unfold Unique
  rw [map_replaceRow]
  exact nodup_rekey unique free

/-- The keys can be replaced in order: each new key is the old one, or free at
its turn. -/
def Rekeyable : List κ → List (κ × κ) → Prop
  | _, [] => True
  | keys, (old, new) :: rest =>
    (new = old ∨ new ∉ keys) ∧ Rekeyable (rekey old new keys) rest

instance Rekeyable.decidable (keys : List κ) (pairs : List (κ × κ)) :
    Decidable (Rekeyable keys pairs) :=
  match pairs with
  | [] => isTrue trivial
  | (old, new) :: rest =>
    have := Rekeyable.decidable (rekey old new keys) rest
    inferInstanceAs (Decidable ((new = old ∨ new ∉ keys) ∧ Rekeyable (rekey old new keys) rest))

@[simp] theorem rekeyable_nil (keys : List κ) : Rekeyable keys [] := trivial

@[simp] theorem rekeyable_cons (keys : List κ) (old new : κ) (rest : List (κ × κ)) :
    Rekeyable keys ((old, new) :: rest) ↔
      (new = old ∨ new ∉ keys) ∧ Rekeyable (rekey old new keys) rest := Iff.rfl

/-- Pairs that keep their key put no condition on the others. -/
theorem rekeyable_filter (moves : κ × κ → Bool) {pairs : List (κ × κ)}
    (still : ∀ pair ∈ pairs, moves pair = false → pair.2 = pair.1) (keys : List κ) :
    Rekeyable keys pairs ↔ Rekeyable keys (pairs.filter moves) := by
  induction pairs generalizing keys with
  | nil => exact Iff.rfl
  | cons pair rest ih =>
    obtain ⟨old, new⟩ := pair
    have restStill : ∀ pair ∈ rest, moves pair = false → pair.2 = pair.1 :=
      fun pair member => still pair (mem_cons_of_mem _ member)
    cases moved : moves (old, new) with
    | true => rw [filter_cons_of_pos moved, rekeyable_cons, rekeyable_cons, ih restStill]
    | false =>
      have same : new = old := still (old, new) mem_cons_self moved
      subst same
      rw [filter_cons_of_neg (by simp [moved]), rekeyable_cons, rekey_self,
        ih restStill]
      exact and_iff_right (.inl rfl)

theorem rekeyable_of_kept {pairs : List (κ × κ)} (kept : ∀ pair ∈ pairs, pair.2 = pair.1)
    (keys : List κ) : Rekeyable keys pairs := by
  rw [rekeyable_filter (fun _ => false) (fun pair member _ => kept pair member)]
  simp

/-! ## Pointwise edits -/

/-- Replace every row named by a pair's first component by the second. -/
def editRows (key : α → κ) (pairs : List (α × α)) (rows : List α) : List α :=
  rows.map fun row =>
    ((pairs.find? fun pair => key pair.1 = key row).map Prod.snd).getD row

@[simp] theorem editRows_nil (key : α → κ) (rows : List α) : editRows key [] rows = rows := by
  simp [editRows]

/-- The old keys of a batch of edits. -/
def oldKeys (key : α → κ) (pairs : List (α × α)) : List κ :=
  pairs.map fun pair => key pair.1

/-- The key changes of a batch of edits. -/
def keyChanges (key : α → κ) (pairs : List (α × α)) : List (κ × κ) :=
  pairs.map fun pair => (key pair.1, key pair.2)

/-- A batch of edits of stored rows, each row edited once. -/
structure Edits (key : α → κ) (pairs : List (α × α)) (rows : List α) : Prop where
  stored : ∀ pair ∈ pairs, pair.1 ∈ rows
  once : (oldKeys key pairs).Nodup

theorem find?_eq_of_once (once : (oldKeys key pairs).Nodup) {pair : α × α} (member : pair ∈ pairs)
    (named : key pair.1 = key row) :
    (pairs.find? fun pair => key pair.1 = key row) = some pair := by
  induction pairs with
  | nil => cases member
  | cons head rest ih =>
    obtain ⟨absent, restOnce⟩ := nodup_cons.mp once
    rcases mem_cons.mp member with rfl | inRest
    · simp [named]
    · have apart : key head.1 ≠ key row := by
        intro same
        apply absent
        change key head.1 ∈ oldKeys key rest
        rw [same, ← named]
        exact mem_map_of_mem inRest
      rw [find?_cons_of_neg (by simp [apart])]
      exact ih restOnce inRest

/-- The rows of an edited table: the new images, and the rows no edit names. -/
theorem mem_editRows (edits : Edits key pairs rows) :
    row ∈ editRows key pairs rows ↔
      (∃ pair ∈ pairs, pair.2 = row) ∨ (row ∈ rows ∧ key row ∉ oldKeys key pairs) := by
  unfold editRows
  rw [mem_map]
  constructor
  · rintro ⟨old, oldMem, rfl⟩
    cases found : pairs.find? fun pair => key pair.1 = key old with
    | some pair => exact .inl ⟨pair, mem_of_find?_eq_some found, rfl⟩
    | none =>
      refine .inr ⟨oldMem, fun named => ?_⟩
      obtain ⟨pair, member, same⟩ := mem_map.mp named
      have miss := find?_eq_none.mp found pair member
      exact miss (by simpa using same)
  · rintro (⟨pair, member, rfl⟩ | ⟨rowMem, unnamed⟩)
    · refine ⟨pair.1, edits.stored pair member, ?_⟩
      rw [find?_eq_of_once edits.once member rfl]
      rfl
    · refine ⟨row, rowMem, ?_⟩
      have miss : (pairs.find? fun pair => key pair.1 = key row) = none := by
        refine find?_eq_none.mpr fun pair member => ?_
        intro named
        apply unnamed
        rw [← of_decide_eq_true named]
        exact mem_map_of_mem member
      rw [miss]
      rfl

theorem map_editRows_of_kept (kept : ∀ pair ∈ pairs, key pair.2 = key pair.1) (rows : List α) :
    (editRows key pairs rows).map key = rows.map key := by
  unfold editRows
  rw [map_map]
  refine map_congr_left fun row _ => ?_
  rw [Function.comp_apply]
  cases found : pairs.find? fun pair => key pair.1 = key row with
  | none => rfl
  | some pair =>
    have named : key pair.1 = key row := by simpa using find?_some found
    exact (kept pair (mem_of_find?_eq_some found)).trans named

/-- The order in which a batch lists its edits does not matter. -/
theorem editRows_perm (edits : Edits key pairs rows) (perm : pairs.Perm others) :
    editRows key pairs rows = editRows key others rows := by
  have otherOnce : (oldKeys key others).Nodup := (perm.map _).nodup_iff.mp edits.once
  refine map_congr_left fun row _ => ?_
  cases found : pairs.find? fun pair => key pair.1 = key row with
  | some pair =>
    have member := perm.mem_iff.mp (mem_of_find?_eq_some found)
    have named : key pair.1 = key row := by simpa using find?_some found
    rw [find?_eq_of_once otherOnce member named]
  | none =>
    have miss : (others.find? fun pair => key pair.1 = key row) = none := by
      refine find?_eq_none.mpr fun pair member => ?_
      exact find?_eq_none.mp found pair (perm.mem_iff.mpr member)
    rw [miss]

omit [DecidableEq κ] in
theorem Edits.perm (edits : Edits key pairs rows) (perm : pairs.Perm others) :
    Edits key others rows where
  stored pair member := edits.stored pair (perm.mem_iff.mpr member)
  once := (perm.map _).nodup_iff.mp edits.once

/-- A statement over many rows is the pointwise edit of the rows it selects. -/
theorem updateRows_eq_editRows (selected : α → Bool) (change : α → α) (unique : Unique key rows) :
    Edits key ((rows.filter selected).map fun row => (row, change row)) rows ∧
      updateRows selected change rows =
        editRows key ((rows.filter selected).map fun row => (row, change row)) rows := by
  have keys : oldKeys key ((rows.filter selected).map fun row => (row, change row)) =
      (rows.filter selected).map key := by
    unfold oldKeys
    rw [map_map]
    rfl
  have once : (oldKeys key ((rows.filter selected).map fun row => (row, change row))).Nodup := by
    rw [keys]
    exact (filter_sublist.map key).nodup unique
  refine ⟨⟨?_, once⟩, ?_⟩
  · intro pair member
    obtain ⟨row, rowMem, rfl⟩ := mem_map.mp member
    exact (mem_filter.mp rowMem).1
  · refine map_congr_left fun row rowMem => ?_
    by_cases hit : selected row = true
    · have member : (row, change row) ∈
          (rows.filter selected).map fun row => (row, change row) :=
        mem_map_of_mem (mem_filter.mpr ⟨rowMem, hit⟩)
      rw [find?_eq_of_once once member rfl]
      simp [hit]
    · have miss : (((rows.filter selected).map fun row => (row, change row)).find?
          fun pair => key pair.1 = key row) = none := by
        refine find?_eq_none.mpr fun pair member => ?_
        obtain ⟨other, otherMem, rfl⟩ := mem_map.mp member
        obtain ⟨otherRow, otherHit⟩ := mem_filter.mp otherMem
        simp only [decide_eq_true_eq]
        intro same
        rw [unique.eq_of_key otherRow rowMem same] at otherHit
        exact hit otherHit
      rw [miss]
      simp [hit]

/-- Edits that left the keys distinct gave distinct new keys. -/
theorem nodup_newKeys (edits : Edits key pairs rows)
    (after : Unique key (editRows key pairs rows)) : (pairs.map fun pair => key pair.2).Nodup := by
  unfold Unique editRows at after
  rw [map_map] at after
  have injective := inj_on_of_nodup_map after
  have oldOnce : pairs.Nodup := edits.once.of_map _
  refine oldOnce.map_on fun left leftMem right rightMem same => ?_
  -- Pairs with one new key edit one row, and a row is edited once.
  have image : ∀ pair ∈ pairs,
      ((pairs.find? fun other => key other.1 = key pair.1).map Prod.snd).getD pair.1 = pair.2 := by
    intro pair member
    rw [find?_eq_of_once edits.once member rfl]
    rfl
  have sameRow : left.1 = right.1 := by
    refine injective (edits.stored left leftMem) (edits.stored right rightMem) ?_
    simp only [Function.comp_apply]
    rw [image left leftMem, image right rightMem, same]
  have inOnce := inj_on_of_nodup_map edits.once
  exact inOnce leftMem rightMem (by rw [sameRow])

/-! ## One edit, then the rest -/

/-- A replaced row's new key is its old one or was free. -/
theorem fresh_of_unique_replaceRow (oldMem : old ∈ rows)
    (unique : Unique key (replaceRow key old new rows)) :
    key new = key old ∨ key new ∉ rows.map key := by
  by_cases same : key new = key old
  · exact .inl same
  · refine .inr fun taken => ?_
    obtain ⟨other, otherMem, otherKey⟩ := mem_map.mp taken
    have apart : key other ≠ key old := by rwa [otherKey]
    have otherKept : other ∈ replaceRow key old new rows :=
      (mem_replaceRow oldMem).mpr (.inr ⟨otherMem, apart⟩)
    have newStored : new ∈ replaceRow key old new rows :=
      (mem_replaceRow oldMem).mpr (.inl rfl)
    have equal := unique.eq_of_key otherKept newStored otherKey
    -- The surviving row would be the new row, but a row keeps or loses its place
    -- by its old key, and both positions carry this key.
    subst equal
    obtain ⟨left, right, split⟩ := append_of_mem oldMem
    have twice : 2 ≤ ((replaceRow key old other rows).map key).count (key other) := by
      rw [split] at otherMem ⊢
      rw [map_replaceRow, map_append, map_cons]
      unfold rekey
      rw [map_append, map_cons, count_append, count_cons]
      have besides : key other ∈ (left.map key).map
            (fun name => if name = key old then key other else name) ∨
          key other ∈ (right.map key).map
            (fun name => if name = key old then key other else name) := by
        have inRest : other ∈ left ∨ other ∈ right := by
          rcases mem_append.mp otherMem with inLeft | inRight
          · exact .inl inLeft
          · rcases mem_cons.mp inRight with rfl | inRight
            · exact absurd rfl apart
            · exact .inr inRight
        rcases inRest with inLeft | inRight
        · exact .inl (mem_map.mpr ⟨key other, mem_map_of_mem inLeft, by simp [apart]⟩)
        · exact .inr (mem_map.mpr ⟨key other, mem_map_of_mem inRight, by simp [apart]⟩)
      rcases besides with inLeft | inRight
      · have := count_pos_iff.mpr inLeft
        simp only [ite_true, BEq.rfl]
        omega
      · have := count_pos_iff.mpr inRight
        simp only [ite_true, BEq.rfl]
        omega
    have once := nodup_iff_count_le_one.mp unique (key other)
    omega

/-- The first edit of a batch, then the others. -/
theorem editRows_cons {rest : List (α × α)} (unique : Unique key rows)
    (edits : Edits key ((old, new) :: rest) rows)
    (fresh : key new = key old ∨ key new ∉ rows.map key) :
    editRows key ((old, new) :: rest) rows =
        editRows key rest (replaceRow key old new rows) ∧
      Edits key rest (replaceRow key old new rows) := by
  obtain ⟨absent, restOnce⟩ := nodup_cons.mp edits.once
  have oldMem : old ∈ rows := edits.stored (old, new) mem_cons_self
  have restStored : ∀ pair ∈ rest, pair.1 ∈ rows :=
    fun pair member => edits.stored pair (mem_cons_of_mem _ member)
  -- The new key names no row of the rest: it is the old key, or it was free.
  have unnamed : (rest.find? fun pair => key pair.1 = key new) = none := by
    refine find?_eq_none.mpr fun pair member => ?_
    simp only [decide_eq_true_eq]
    intro same
    rcases fresh with kept | free
    · apply absent
      change key old ∈ oldKeys key rest
      rw [← kept, ← same]
      exact mem_map_of_mem member
    · apply free
      rw [← same]
      exact mem_map_of_mem (restStored pair member)
  refine ⟨?_, ⟨?_, restOnce⟩⟩
  · unfold editRows replaceRow updateRows
    rw [map_map]
    refine map_congr_left fun row rowMem => ?_
    by_cases same : key row = key old
    · have equal : row = old := unique.eq_of_key rowMem oldMem same
      subst equal
      simp [unnamed]
    · have skip : ¬ key old = key row := fun reversed => same reversed.symm
      simp [same, skip]
  · intro pair member
    refine (mem_replaceRow oldMem).mpr (.inr ⟨restStored pair member, ?_⟩)
    intro same
    apply absent
    change key old ∈ oldKeys key rest
    rw [← same]
    exact mem_map_of_mem member

/-- One batch of edits, then another. -/
theorem editRows_append {first second : List (α × α)} (unique : Unique key rows)
    (edits : Edits key (first ++ second) rows)
    (free : Rekeyable (rows.map key) (keyChanges key first)) :
    editRows key (first ++ second) rows = editRows key second (editRows key first rows) ∧
      Edits key second (editRows key first rows) := by
  induction first generalizing rows with
  | nil =>
    rw [editRows_nil]
    exact ⟨rfl, edits⟩
  | cons pair first ih =>
    obtain ⟨old, new⟩ := pair
    obtain ⟨freeNow, freeLater⟩ := free
    have firstEdits : Edits key ((old, new) :: first) rows := by
      refine ⟨fun pair member => edits.stored pair (mem_append_left _ member), ?_⟩
      have once := edits.once
      unfold oldKeys at once
      rw [map_append] at once
      exact (nodup_append.mp once).1
    obtain ⟨split, restEdits⟩ := editRows_cons unique edits freeNow
    rw [(editRows_cons unique firstEdits freeNow).1]
    have inner := ih (unique.replaceRow freeNow) restEdits (by rw [map_replaceRow]; exact freeLater)
    exact ⟨split.trans inner.1, inner.2⟩

/-! ## Statements -/

namespace Slot

variable {σ ε ν : Type} {constraints : List (Constraint α ν)}
  {slot : Slot σ ε α ν constraints} {session session' : σ}

variable {key : α → κ}

/-- An update keyed on a unique column changes no row, or replaces one row whose
new key is its old one or was free. -/
theorem update_keyed (unique : ∀ table : Table α ν constraints, Unique key table.rows)
    {selected : α → Bool} {change : α → α} {name : κ}
    (keyed : ∀ row, selected row = true → key row = name) {count : Nat}
    (ran : slot.update selected change session = .ok (count, session')) :
    (count = 0 ∧ session' = session ∧ ∀ row ∈ slot.rows session, selected row = false) ∨
      (count = 1 ∧ ∃ old ∈ slot.rows session, selected old = true ∧
        (key (change old) = key old ∨ key (change old) ∉ (slot.rows session).map key) ∧
        ∃ table : Table α ν constraints,
          table.rows = replaceRow key old (change old) (slot.rows session) ∧
            session' = slot.put table session) := by
  obtain ⟨rfl, table, tableRows, rfl⟩ := update_eq_ok.mp ran
  have before : Unique key (slot.rows session) := unique (slot.get session)
  have single : ∀ left ∈ slot.rows session, ∀ right ∈ slot.rows session,
      selected left = true → selected right = true → key left = key right :=
    fun left _ right _ leftHit rightHit => (keyed left leftHit).trans (keyed right rightHit).symm
  rcases countP_le_one before single with none | one
  · have missed : ∀ row ∈ slot.rows session, selected row = false := by
      intro row rowMem
      have := countP_eq_zero.mp none row rowMem
      simpa using this
    refine .inl ⟨none, ?_, missed⟩
    have same : table = slot.get session := by
      apply Table.ext_rows
      rw [tableRows, updateRows_of_forall_not missed]
      rfl
    rw [same, slot.put_get]
  · obtain ⟨old, oldMem, hit⟩ := (countP_eq_one_iff before single).mp one
    have replaced : updateRows selected change (slot.rows session) =
        replaceRow key old (change old) (slot.rows session) :=
      updateRows_eq_replaceRow before oldMem hit
        fun row _ rowHit => (keyed row rowHit).trans (keyed old hit).symm
    have after : Unique key (replaceRow key old (change old) (slot.rows session)) := by
      rw [← replaced, ← tableRows]
      exact unique table
    exact .inr ⟨one, old, oldMem, hit, fresh_of_unique_replaceRow oldMem after,
      table, tableRows.trans replaced, rfl⟩

/-- A batch of keyed statements that reports one row per statement, or whose
statements all select their row, performed the pointwise edit, and every new key
was free at its turn. -/
theorem executeMany_edits (unique : ∀ table : Table α ν constraints, Unique key table.rows)
    (row : β → α) {selected : β → α → Bool} {change : β → α → α} {items : List β} {total : Nat}
    (ran : Txn.executeMany (fun item => slot.update (selected item) (change item)) items
      session = .ok (total, session'))
    (keyed : ∀ item other, selected item other = true → key other = key (row item))
    (edits : Edits key (items.map fun item => (row item, change item (row item)))
      (slot.rows session)) :
    total ≤ items.length ∧
      ((total = items.length ∨ ∀ item ∈ items, selected item (row item) = true) →
        total = items.length ∧ (∀ item ∈ items, selected item (row item) = true) ∧
          Rekeyable ((slot.rows session).map key)
            (keyChanges key (items.map fun item => (row item, change item (row item)))) ∧
          ∃ table : Table α ν constraints,
            table.rows = editRows key
                (items.map fun item => (row item, change item (row item)))
                (slot.rows session) ∧
              session' = slot.put table session) := by
  induction items generalizing session total with
  | nil =>
    obtain ⟨rfl, rfl⟩ := Txn.pure_eq_ok.mp ran
    refine ⟨Nat.le_refl _, fun _ => ⟨rfl, by simp, trivial, slot.get session', ?_, ?_⟩⟩
    · simp [rows]
    · rw [slot.put_get]
  | cons item items ih =>
    obtain ⟨count, middle, rest, first, others, rfl⟩ := Txn.executeMany_cons_eq_ok.mp ran
    have itemMem : row item ∈ slot.rows session :=
      edits.stored (row item, change item (row item)) mem_cons_self
    rcases update_keyed unique (keyed item) first with
      ⟨rfl, rfl, missed⟩ | ⟨rfl, old, oldMem, hit, fresh, table, tableRows, rfl⟩
    · have restEdits : Edits key (items.map fun item => (row item, change item (row item)))
          (slot.rows middle) :=
        ⟨fun pair member => edits.stored pair (mem_cons_of_mem _ member),
          (nodup_cons.mp edits.once).2⟩
      have bound := (ih others restEdits).1
      refine ⟨by simp only [length_cons]; omega, fun complete => ?_⟩
      rcases complete with full | hits
      · simp only [length_cons] at full
        omega
      · have hit := hits item mem_cons_self
        rw [missed _ itemMem] at hit
        cases hit
    · have same : old = row item :=
        (unique (slot.get session)).eq_of_key oldMem itemMem (keyed item old hit)
      subst same
      obtain ⟨split, restEdits⟩ :=
        editRows_cons (unique (slot.get session)) edits fresh
      have middleRows : slot.rows (slot.put table session) =
          replaceRow key (row item) (change item (row item)) (slot.rows session) := by
        rw [rows_put, tableRows]
      have inner := ih others (by rw [middleRows]; exact restEdits)
      refine ⟨by simp only [length_cons]; omega, fun complete => ?_⟩
      have restComplete : rest = items.length ∨
          ∀ item ∈ items, selected item (row item) = true := by
        refine complete.imp (fun full => ?_) fun hits other member =>
          hits other (mem_cons_of_mem _ member)
        simp only [length_cons] at full
        omega
      obtain ⟨full, hits, free, final, finalRows, reached⟩ := inner.2 restComplete
      refine ⟨by simp only [length_cons]; omega, ?_, ?_, final, ?_, ?_⟩
      · intro other member
        rcases mem_cons.mp member with rfl | member
        · exact hit
        · exact hits other member
      · refine ⟨fresh, ?_⟩
        rw [← map_replaceRow, ← middleRows]
        exact free
      · rw [finalRows, middleRows]
        exact split.symm
      · rw [reached, slot.put_put]

end Slot

end Relational
