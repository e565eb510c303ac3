import Mathlib.Data.List.Induction
import Mathlib.Data.List.Nodup
import Mathlib.Data.PNat.Defs
import Mathlib.Data.String.Basic

/-!
# Insertion-ordered dictionaries

A dictionary keeps its keys in the order in which they were first set.  Setting a key it
already has replaces the value in place; a bounded dictionary forgets its oldest keys.
-/

namespace Collections

open List

variable {κ ν : Type}

/-- Of two lists related item by item, each item of the first has a partner in the second. -/
theorem exists_of_forall₂ {related : κ → ν → Prop} {first : List κ} {second : List ν}
    (all : Forall₂ related first second) {item : κ} (mem : item ∈ first) :
    ∃ partner ∈ second, related item partner := by
  induction all with
  | nil => cases mem
  | cons here rest ih =>
    rcases mem_cons.mp mem with rfl | later
    · exact ⟨_, mem_cons_self, here⟩
    · obtain ⟨partner, listed, holds⟩ := ih later
      exact ⟨partner, mem_cons_of_mem _ listed, holds⟩

/-- Entries with distinct keys, oldest first. -/
structure Dict (κ ν : Type) where
  entries : List (κ × ν)
  nodup : (entries.map Prod.fst).Nodup

namespace Dict

@[ext]
theorem ext {first second : Dict κ ν} (same : first.entries = second.entries) : first = second := by
  cases first
  cases second
  cases same
  rfl

def empty : Dict κ ν := ⟨[], nodup_nil⟩

def keys (dict : Dict κ ν) : List κ := dict.entries.map Prod.fst

def values (dict : Dict κ ν) : List ν := dict.entries.map Prod.snd

def size (dict : Dict κ ν) : Nat := dict.entries.length

@[simp] theorem keys_empty : (empty : Dict κ ν).keys = [] := rfl

@[simp] theorem values_empty : (empty : Dict κ ν).values = [] := rfl

@[simp] theorem size_empty : (empty : Dict κ ν).size = 0 := rfl

theorem length_keys (dict : Dict κ ν) : dict.keys.length = dict.size := length_map ..

theorem length_values (dict : Dict κ ν) : dict.values.length = dict.size := length_map ..

theorem nodup_keys (dict : Dict κ ν) : dict.keys.Nodup := dict.nodup

variable {ω : Type}

theorem keys_filterMap_sublist (f : ν → Option ω) (entries : List (κ × ν)) :
    ((entries.filterMap fun entry => (f entry.2).map fun value => (entry.1, value)).map
      Prod.fst).Sublist (entries.map Prod.fst) := by
  induction entries with
  | nil => exact .slnil
  | cons entry entries ih =>
    rw [filterMap_cons]
    cases f entry.2 with
    | none => exact ih.cons _
    | some => exact ih.cons_cons _

/-- Keep the entries whose value has an image. -/
def filterMap (f : ν → Option ω) (dict : Dict κ ν) : Dict κ ω :=
  ⟨dict.entries.filterMap fun entry => (f entry.2).map fun value => (entry.1, value),
    dict.nodup.sublist (keys_filterMap_sublist f dict.entries)⟩

def mapValues (f : ν → ω) (dict : Dict κ ν) : Dict κ ω :=
  ⟨dict.entries.map fun entry => (entry.1, f entry.2), by
    rw [map_map]
    exact dict.nodup⟩

/-- Replace each value by one computed from its key as well. -/
def mapWithKey (f : κ → ν → ω) (dict : Dict κ ν) : Dict κ ω :=
  ⟨dict.entries.map fun entry => (entry.1, f entry.1 entry.2), by
    rw [map_map]
    exact dict.nodup⟩

variable [DecidableEq κ]

def get (dict : Dict κ ν) (key : κ) : Option ν :=
  (dict.entries.find? fun entry => entry.1 = key).map Prod.snd

variable {dict : Dict κ ν} {key other : κ} {value : ν} {entries : List (κ × ν)}
  {capacity : Option ℕ+}

theorem get_eq_some : dict.get key = some value ↔ (key, value) ∈ dict.entries := by
  unfold get
  rw [Option.map_eq_some_iff]
  constructor
  · rintro ⟨entry, found, rfl⟩
    have same : entry.1 = key := by simpa using find?_some found
    rw [← same]
    exact mem_of_find?_eq_some found
  · intro listed
    cases found : dict.entries.find? fun entry => entry.1 = key with
    | none => exact absurd (find?_eq_none.mp found _ listed) (by simp)
    | some entry =>
      have same : entry.1 = key := by simpa using find?_some found
      have here := mem_of_find?_eq_some found
      -- Keys are distinct, so the entry found is the one asked for.
      have unique := inj_on_of_nodup_map dict.nodup here listed same
      exact ⟨entry, rfl, by rw [unique]⟩

theorem get_eq_none : dict.get key = none ↔ key ∉ dict.keys := by
  constructor
  · intro missing listed
    obtain ⟨⟨_, value⟩, entry, rfl⟩ := mem_map.mp listed
    rw [get_eq_some.mpr entry] at missing
    cases missing
  · intro missing
    cases found : dict.get key with
    | none => rfl
    | some => exact absurd (mem_map.mpr ⟨_, get_eq_some.mp found, rfl⟩) missing

theorem mem_keys : key ∈ dict.keys ↔ ∃ value, dict.get key = some value := by
  rw [← Option.isSome_iff_exists, Option.isSome_iff_ne_none, ne_eq, get_eq_none, not_not]

/-- Whether a key is set is looked up. -/
instance decidableMemKeys (dict : Dict κ ν) (key : κ) : Decidable (key ∈ dict.keys) :=
  decidable_of_iff ((dict.get key).isSome = true) (Option.isSome_iff_exists.trans mem_keys.symm)

theorem mem_keys_of_get (found : dict.get key = some value) : key ∈ dict.keys :=
  mem_keys.mpr ⟨value, found⟩

theorem mem_values : value ∈ dict.values ↔ ∃ key, dict.get key = some value := by
  constructor
  · intro listed
    obtain ⟨⟨key, _⟩, entry, rfl⟩ := mem_map.mp listed
    exact ⟨key, get_eq_some.mpr entry⟩
  · rintro ⟨key, found⟩
    exact mem_map.mpr ⟨_, get_eq_some.mp found, rfl⟩

theorem filterMap_get_keys (dict : Dict κ ν) : dict.keys.filterMap dict.get = dict.values := by
  unfold keys values
  rw [filterMap_map, filterMap_eq_map_iff_forall_eq_some.mpr]
  intro entry listed
  exact get_eq_some.mpr listed

/-- Looking up a list that covers the keys gives the values, in the list's order. -/
theorem filterMap_get_perm {list : List κ} (distinct : list.Nodup)
    (covers : ∀ key ∈ dict.keys, key ∈ list) : (list.filterMap dict.get).Perm dict.values := by
  have present : (list.filter (· ∈ dict.keys)).Perm dict.keys := by
    refine (perm_ext_iff_of_nodup (distinct.filter _) dict.nodup).mpr fun key => ?_
    rw [mem_filter, decide_eq_true_eq]
    exact ⟨fun both => both.2, fun known => ⟨covers key known, known⟩⟩
  have same : list.filterMap dict.get = (list.filter (· ∈ dict.keys)).filterMap dict.get := by
    rw [filterMap_filter]
    refine filterMap_congr fun key _ => ?_
    by_cases known : key ∈ dict.keys
    · simp [known]
    · simp [known, get_eq_none.mpr known]
  rw [same, ← filterMap_get_keys]
  exact present.filterMap _

@[simp]
theorem get_empty (key : κ) : (empty : Dict κ ν).get key = none := rfl

/-! ## Setting and removing -/

/-- Replace the value of a key in place, or append the key. -/
def set (dict : Dict κ ν) (key : κ) (value : ν) : Dict κ ν :=
  if known : key ∈ dict.keys then
    ⟨dict.entries.map fun entry => if entry.1 = key then (key, value) else entry, by
      have same : (dict.entries.map fun entry => if entry.1 = key then (key, value) else entry).map
          Prod.fst = dict.keys := by
        rw [map_map]
        refine map_congr_left fun entry _ => ?_
        by_cases here : entry.1 = key <;> simp [here]
      rw [same]
      exact dict.nodup⟩
  else
    ⟨dict.entries ++ [(key, value)], by
      rw [map_append, map_singleton]
      exact dict.nodup.append (nodup_singleton _)
        (disjoint_singleton.mpr known)⟩

theorem keys_set_of_mem (known : key ∈ dict.keys) (value : ν) :
    (dict.set key value).keys = dict.keys := by
  unfold set
  rw [dif_pos known]
  show (dict.entries.map _).map Prod.fst = dict.keys
  rw [map_map]
  refine map_congr_left fun entry _ => ?_
  by_cases here : entry.1 = key <;> simp [here]

theorem entries_set_of_notMem (new : key ∉ dict.keys) (value : ν) :
    (dict.set key value).entries = dict.entries ++ [(key, value)] := by
  unfold set
  rw [dif_neg new]

theorem keys_set_of_notMem (new : key ∉ dict.keys) (value : ν) :
    (dict.set key value).keys = dict.keys ++ [key] := by
  unfold keys
  rw [entries_set_of_notMem new, map_append, map_singleton]

theorem values_set_of_notMem (new : key ∉ dict.keys) (value : ν) :
    (dict.set key value).values = dict.values ++ [value] := by
  unfold values
  rw [entries_set_of_notMem new, map_append, map_singleton]

theorem get_set (dict : Dict κ ν) (key : κ) (value : ν) (other : κ) :
    (dict.set key value).get other = if other = key then some value else dict.get other := by
  have members : ∀ found, (other, found) ∈ (dict.set key value).entries ↔
      if other = key then found = value else (other, found) ∈ dict.entries := by
    intro found
    by_cases known : key ∈ dict.keys
    · unfold set
      rw [dif_pos known]
      constructor
      · intro listed
        obtain ⟨entry, isEntry, same⟩ := mem_map.mp listed
        by_cases here : entry.1 = key
        · rw [if_pos here] at same
          cases same
          rw [if_pos rfl]
        · rw [if_neg here] at same
          cases same
          rw [if_neg here]
          exact isEntry
      · intro listed
        by_cases here : other = key
        · rw [if_pos here] at listed
          obtain ⟨entry, isEntry, same⟩ := mem_map.mp known
          exact mem_map.mpr ⟨entry, isEntry, by rw [if_pos same, listed, here]⟩
        · rw [if_neg here] at listed
          exact mem_map.mpr ⟨_, listed, if_neg here⟩
    · rw [entries_set_of_notMem known]
      by_cases here : other = key
      · subst here
        have absent : (other, found) ∉ dict.entries := fun listed =>
          known (mem_map.mpr ⟨_, listed, rfl⟩)
        simp [absent]
      · simp [here]
  by_cases here : other = key
  · rw [if_pos here]
    exact get_eq_some.mpr ((members value).mpr (by rw [if_pos here]))
  · rw [if_neg here]
    refine Option.ext fun found => ?_
    rw [get_eq_some, members, if_neg here, get_eq_some]

@[simp]
theorem get_set_self (dict : Dict κ ν) (key : κ) (value : ν) :
    (dict.set key value).get key = some value := by
  rw [get_set, if_pos rfl]

theorem get_set_ne (dict : Dict κ ν) (apart : other ≠ key) (value : ν) :
    (dict.set key value).get other = dict.get other := by
  rw [get_set, if_neg apart]

theorem mem_keys_set : other ∈ (dict.set key value).keys ↔ other = key ∨ other ∈ dict.keys := by
  rw [mem_keys, mem_keys, get_set]
  by_cases here : other = key
  · simp [here]
  · simp [here]

def erase (dict : Dict κ ν) (key : κ) : Dict κ ν :=
  ⟨dict.entries.filter fun entry => entry.1 ≠ key,
    dict.nodup.sublist (filter_sublist.map _)⟩

theorem get_erase (dict : Dict κ ν) (key other : κ) :
    (dict.erase key).get other = if other = key then none else dict.get other := by
  refine Option.ext fun found => ?_
  rw [get_eq_some]
  unfold erase
  by_cases here : other = key
  · simp [here]
  · simp [here, get_eq_some]

@[simp]
theorem get_erase_self (dict : Dict κ ν) (key : κ) : (dict.erase key).get key = none := by
  rw [get_erase, if_pos rfl]

theorem get_erase_ne (dict : Dict κ ν) (apart : other ≠ key) :
    (dict.erase key).get other = dict.get other := by
  rw [get_erase, if_neg apart]

/-! ## Building and mapping -/

/-- The dictionary of a list of entries; a later entry replaces an earlier one. -/
def ofList (entries : List (κ × ν)) : Dict κ ν :=
  entries.foldl (fun dict entry => dict.set entry.1 entry.2) empty

theorem mem_keys_foldl_set :
    key ∈ (entries.foldl (fun dict entry => dict.set entry.1 entry.2) dict).keys ↔
      key ∈ dict.keys ∨ key ∈ entries.map Prod.fst := by
  induction entries generalizing dict with
  | nil => simp
  | cons entry entries ih =>
    rw [foldl_cons, ih, mem_keys_set, map_cons, mem_cons]
    tauto

theorem mem_keys_ofList : key ∈ (ofList entries).keys ↔ key ∈ entries.map Prod.fst := by
  unfold ofList
  rw [mem_keys_foldl_set]
  simp

theorem mem_of_get_foldl_set
    (found : (entries.foldl (fun dict entry => dict.set entry.1 entry.2) dict).get key =
      some value) :
    (key, value) ∈ entries ∨ dict.get key = some value := by
  induction entries generalizing dict with
  | nil => exact .inr found
  | cons entry entries ih =>
    rcases ih found with listed | before
    · exact .inl (mem_cons_of_mem _ listed)
    · rw [get_set] at before
      split at before
      next same =>
        cases before
        subst same
        exact .inl mem_cons_self
      · exact .inr before

/-- Entries that are all on the graph of a function and cover its domain make up the function. -/
theorem get_ofList_of_graph {f : κ → Option ν} (graph : ∀ entry ∈ entries, f entry.1 = some entry.2)
    (covers : f key ≠ none → key ∈ entries.map Prod.fst) : (ofList entries).get key = f key := by
  cases found : (ofList entries).get key with
  | some =>
    rcases mem_of_get_foldl_set found with listed | before
    · exact (graph _ listed).symm
    · cases before
  | none =>
    by_contra apart
    exact get_eq_none.mp found (mem_keys_ofList.mpr (covers (Ne.symm apart)))

/-- The entries of one key. -/
theorem filter_entries (dict : Dict κ ν) (key : κ) :
    dict.entries.filter (fun entry => entry.1 = key) =
      (dict.get key).toList.map fun value => (key, value) := by
  have distinct := dict.nodup
  unfold get
  generalize dict.entries = entries at distinct
  induction entries with
  | nil => rfl
  | cons entry entries ih =>
    obtain ⟨new, rest⟩ := nodup_cons.mp distinct
    rw [filter_cons, find?_cons]
    by_cases here : entry.1 = key
    · have absent : entries.filter (fun entry => entry.1 = key) = [] :=
        filter_eq_nil_iff.mpr fun other mem same =>
          new (mem_map.mpr ⟨other, mem, (of_decide_eq_true same).trans here.symm⟩)
      simp [here, absent, Prod.ext_iff]
    · simp only [here, decide_false, Bool.false_eq_true, if_false]
      exact ih rest

/-- Recompute the value of a key from the value it has. -/
def update {ε : Type} (dict : Dict κ ν) (key : κ) (compute : Option ν → Except ε ν) :
    Except ε (Dict κ ν) :=
  (compute (dict.get key)).map (dict.set key)

/-- A sequence of updates is, at each key, the sequence of that key's updates. -/
theorem foldlM_get_of_foldlM_update {ε α : Type} {key : α → κ}
    {compute : α → Option ν → Except ε ν} {items : List α} {last : Dict κ ν}
    (ran : items.foldlM (fun dict item => dict.update (key item) (compute item)) dict = .ok last)
    (name : κ) :
    (items.filter fun item => key item = name).foldlM
      (fun value item => (compute item value).map some) (dict.get name) = .ok (last.get name) := by
  induction items generalizing dict with
  | nil =>
    cases ran
    rfl
  | cons item items ih =>
    rw [foldlM_cons] at ran
    rcases computed : compute item (dict.get (key item)) with fault | value
    · rw [update, computed] at ran
      cases ran
    · rw [update, computed] at ran
      have rest := @ih (dict.set (key item) value) ran
      by_cases here : key item = name
      · subst here
        rw [get_set_self] at rest
        rw [filter_cons, if_pos (decide_eq_true rfl), foldlM_cons, computed]
        exact rest
      · rw [get_set_ne _ fun same => here same.symm] at rest
        rw [filter_cons, if_neg fun same => here (of_decide_eq_true same)]
        exact rest

/-- Updates of which none fails at its key do not fail. -/
theorem foldlM_update_ok {ε α : Type} {key : α → κ} {compute : α → Option ν → Except ε ν}
    {items : List α} (each : ∀ name, ∃ value, (items.filter fun item => key item = name).foldlM
      (fun value item => (compute item value).map some) (dict.get name) = .ok value) :
    ∃ last, items.foldlM (fun dict item => dict.update (key item) (compute item)) dict =
      .ok last := by
  induction items generalizing dict with
  | nil => exact ⟨dict, rfl⟩
  | cons item items ih =>
    obtain ⟨value, ran⟩ := each (key item)
    rw [filter_cons, if_pos (decide_eq_true rfl), foldlM_cons] at ran
    rcases computed : compute item (dict.get (key item)) with fault | first
    · rw [computed] at ran
      cases ran
    · obtain ⟨last, rest⟩ := @ih (dict.set (key item) first) fun name => by
        by_cases here : key item = name
        · subst here
          rw [computed] at ran
          rw [get_set_self]
          exact ⟨value, ran⟩
        · obtain ⟨other, there⟩ := each name
          rw [filter_cons, if_neg fun same => here (of_decide_eq_true same)] at there
          rw [get_set_ne _ fun same => here same.symm]
          exact ⟨other, there⟩
      refine ⟨last, ?_⟩
      rw [foldlM_cons, update, computed]
      exact rest

theorem get_mapValues (f : ν → ω) (dict : Dict κ ν) (key : κ) :
    (dict.mapValues f).get key = (dict.get key).map f := by
  unfold mapValues get
  rw [find?_map, Option.map_map, Option.map_map]
  rfl

theorem get_mapWithKey (f : κ → ν → ω) (dict : Dict κ ν) (key : κ) :
    (dict.mapWithKey f).get key = (dict.get key).map (f key) := by
  refine Option.ext fun value => ?_
  rw [get_eq_some, Option.map_eq_some_iff]
  constructor
  · intro listed
    obtain ⟨entry, mem, same⟩ := mem_map.mp listed
    cases same
    exact ⟨entry.2, get_eq_some.mpr mem, rfl⟩
  · rintro ⟨old, found, rfl⟩
    exact mem_map.mpr ⟨(key, old), get_eq_some.mp found, rfl⟩

theorem get_filterMap (f : ν → Option ω) (dict : Dict κ ν) (key : κ) :
    (dict.filterMap f).get key = (dict.get key).bind f := by
  refine Option.ext fun value => ?_
  rw [get_eq_some, Option.bind_eq_some_iff]
  constructor
  · intro listed
    obtain ⟨entry, mem, image⟩ := mem_filterMap.mp listed
    obtain ⟨_, mapped, same⟩ := Option.map_eq_some_iff.mp image
    cases same
    exact ⟨entry.2, get_eq_some.mpr mem, mapped⟩
  · rintro ⟨old, found, image⟩
    exact mem_filterMap.mpr ⟨(key, old), get_eq_some.mp found, by rw [image]; rfl⟩

/-! ## Bounded dictionaries -/

/-- Forget the oldest keys until at most `capacity` remain. -/
def evict (capacity : Option ℕ+) (dict : Dict κ ν) : Dict κ ν :=
  match capacity with
  | none => dict
  | some bound =>
    ⟨dict.entries.drop (dict.size - bound), dict.nodup.sublist ((drop_sublist ..).map _)⟩

/-- Set a key and forget the oldest ones beyond the bound. -/
def put (capacity : Option ℕ+) (dict : Dict κ ν) (key : κ) (value : ν) : Dict κ ν :=
  (dict.set key value).evict capacity

/-- The dictionary is within its bound. -/
def Fits (capacity : Option ℕ+) (dict : Dict κ ν) : Prop :=
  ∀ bound, capacity = some bound → dict.size ≤ bound

theorem get_of_get_evict (found : (dict.evict capacity).get key = some value) :
    dict.get key = some value := by
  cases capacity with
  | none => exact found
  | some => exact get_eq_some.mpr (mem_of_mem_drop (get_eq_some.mp found))

omit [DecidableEq κ] in
theorem evict_eq_of_fits (fits : dict.Fits capacity) : dict.evict capacity = dict := by
  cases capacity with
  | none => rfl
  | some bound =>
    have none_over : dict.size - bound = 0 := Nat.sub_eq_zero_of_le (fits bound rfl)
    ext1
    show dict.entries.drop (dict.size - bound) = dict.entries
    rw [none_over, drop_zero]

omit [DecidableEq κ] in
theorem fits_evict (capacity : Option ℕ+) (dict : Dict κ ν) :
    (dict.evict capacity).Fits capacity := by
  rintro bound rfl
  show (dict.entries.drop (dict.size - bound)).length ≤ bound
  rw [length_drop]
  unfold size
  omega

theorem fits_put (capacity : Option ℕ+) (dict : Dict κ ν) (key : κ) (value : ν) :
    (dict.put capacity key value).Fits capacity :=
  fits_evict capacity _

/-- The key that was just put is not the one forgotten. -/
theorem get_put_self (fits : dict.Fits capacity) (key : κ) (value : ν) :
    (dict.put capacity key value).get key = some value := by
  unfold put
  by_cases known : key ∈ dict.keys
  · have same : (dict.set key value).size = dict.size := by
      rw [← length_keys, keys_set_of_mem known, length_keys]
    rw [evict_eq_of_fits fun bound chosen => same ▸ fits bound chosen, get_set_self]
  · cases capacity with
    | none => exact get_set_self ..
    | some bound =>
      have positive : 0 < (bound : Nat) := bound.2
      have fresh := entries_set_of_notMem known value
      have room : (dict.set key value).size - bound ≤ dict.entries.length := by
        unfold size
        rw [fresh, length_append, length_singleton]
        omega
      refine get_eq_some.mpr ?_
      show (key, value) ∈ (dict.set key value).entries.drop ((dict.set key value).size - bound)
      rw [fresh, drop_append_of_le_length room]
      exact mem_append_right _ (mem_singleton.mpr rfl)

/-- What a bounded dictionary still holds after a put. -/
theorem get_of_get_put {found : ν} (kept : (dict.put capacity key value).get other = some found) :
    if other = key then found = value else dict.get other = some found := by
  have before := get_of_get_evict kept
  rw [get_set] at before
  by_cases here : other = key
  · rw [if_pos here] at before ⊢
    exact (Option.some.inj before).symm
  · rw [if_neg here] at before ⊢
    exact before

theorem mem_keys_of_put (kept : other ∈ (dict.put capacity key value).keys) :
    other = key ∨ other ∈ dict.keys := by
  obtain ⟨found, got⟩ := mem_keys.mp kept
  have before := get_of_get_put got
  by_cases here : other = key
  · exact .inl here
  · rw [if_neg here] at before
    exact .inr (mem_keys_of_get before)

end Dict

/-- Changing the last element of a list that was just appended to. -/
theorem modify_concat {α : Type} (list : List α) (last : α) (change : α → α) :
    (list ++ [last]).modify list.length change = list ++ [change last] := by
  induction list with
  | nil => rfl
  | cons head list ih => exact congrArg (head :: ·) ih

end Collections
