import Elspeth.Coalesce.Policy
import Elspeth.Contracts.UnionMerge

/-!
# Merging the rows of a group

What a merge makes of the rows that arrived: the union of their fields, one field per branch,
or the row of one branch.  A union meets the rows in the declared order of the branches.  It
keeps the last value of a field and remembers all values of a field that several branches
carry, from which the first value can be put back.
-/

namespace Elspeth.Coalesce

open List

open Collections (Dict)

variable {V : Type}

/-- A row by field name. -/
abbrev RowData (V : Type) : Type := Dict String V

/-- The rows of the arrived branches, all of them branches of the coalesce. -/
structure Arrivals (settings : CoalesceSettings) (V : Type) where
  rows : Dict String (RowData V)
  expected : ∀ branch ∈ rows.keys, branch ∈ settings.branches

structure MergedData (V : Type) where
  merged : Dict String V
  collisions : Dict String (List String)
  fieldOrigins : Dict String String
  collisionValues : Dict String (List (String × V))

namespace MergedData

def empty : MergedData V := ⟨Dict.empty, Dict.empty, Dict.empty, Dict.empty⟩

/-- Begin the collision of a field with the branch and the value it has so far. -/
def seed (data : MergedData V) (field prior : String) : MergedData V :=
  if field ∈ data.collisions.keys then data
  else { data with
    collisions := data.collisions.set field [prior]
    collisionValues := data.collisionValues.set field
      ((data.merged.get field).toList.map fun value => (prior, value)) }

/-- Note that one more branch carries a field. -/
def collide (data : MergedData V) (branch field : String) (value : V) : MergedData V :=
  match data.fieldOrigins.get field with
  | none => data
  | some prior =>
    let seeded := data.seed field prior
    { seeded with
      collisions := seeded.collisions.set field
        ((seeded.collisions.get field).getD [] ++ [branch])
      collisionValues := seeded.collisionValues.set field
        ((seeded.collisionValues.get field).getD [] ++ [(branch, value)]) }

/-- Take in one field of one branch's row. -/
def add (data : MergedData V) (contribution : String × String × V) : MergedData V :=
  let noted := data.collide contribution.1 contribution.2.1 contribution.2.2
  { noted with
    fieldOrigins := noted.fieldOrigins.set contribution.2.1 contribution.1
    merged := noted.merged.set contribution.2.1 contribution.2.2 }

end MergedData

inductive MergeDataError where
  | selectBranchUnset (name : String)
  | selectBranchNotArrived (branch : String) (arrived : List String)
  deriving DecidableEq, Repr

section Merge

variable (nest : RowData V → V) (settings : CoalesceSettings) (rows : Dict String (RowData V))

/-- The fields of the arrived rows, branch by branch in the declared order. -/
def contributions : List (String × String × V) :=
  settings.branches.flatMap fun branch =>
    ((rows.get branch).map Dict.entries).getD [] |>.map fun entry => (branch, entry.1, entry.2)

/-- One field per arrived branch that holds the branch's row. -/
def nestedRow : RowData V :=
  Dict.ofList (settings.branches.filterMap fun branch =>
    (rows.get branch).map fun row => (branch, nest row))

/-- Merge the arrived rows by the strategy.  A row is also a value, by `nest`. -/
def mergeData : Except MergeDataError (MergedData V) :=
  match settings.merge with
  | .union => .ok ((contributions settings rows).foldl MergedData.add MergedData.empty)
  | .nested => .ok { MergedData.empty with merged := nestedRow nest settings rows }
  | .select =>
    match settings.selectBranch with
    | none => .error (.selectBranchUnset settings.name)
    | some branch =>
      match rows.get branch with
      | none => .error (.selectBranchNotArrived branch rows.keys)
      | some row => .ok { MergedData.empty with merged := row }

end Merge

/-- A collision of fewer than two branches. -/
structure MalformedCollision where
  field : String
  entries : Nat
  deriving DecidableEq, Repr

/-- Give one collision to its first branch. -/
def resolveFirst (resolved : Dict String V × Dict String String)
    (collision : String × List (String × V)) :
    Except MalformedCollision (Dict String V × Dict String String) :=
  match collision.2 with
  | first :: _ :: _ =>
    .ok (resolved.1.set collision.1 first.2, resolved.2.set collision.1 first.1)
  | entries => .error ⟨collision.1, entries.length⟩

/-- The merged fields and their origins, with each collision given to its first branch. -/
def resolveFirstWins (data : MergedData V) :
    Except MalformedCollision (Dict String V × Dict String String) :=
  data.collisionValues.entries.foldlM resolveFirst (data.merged, data.fieldOrigins)

/-! ## Which branch a field comes from -/

/-- The branches that carry a field, in order, with the values they carry. -/
def carriersIn (given : List (String × String × V)) (field : String) : List (String × V) :=
  (given.filter fun contribution => contribution.2.1 = field).map fun contribution =>
    (contribution.1, contribution.2.2)

theorem carriersIn_snoc (given : List (String × String × V)) (branch field : String) (value : V)
    (other : String) :
    carriersIn (given ++ [(branch, field, value)]) other =
      carriersIn given other ++ if field = other then [(branch, value)] else [] := by
  unfold carriersIn
  by_cases here : field = other <;> simp [here]

/-- What has been gathered from the contributions so far. -/
structure Gathered (given : List (String × String × V)) (data : MergedData V) : Prop where
  merged : ∀ field, data.merged.get field = (carriersIn given field).getLast?.map Prod.snd
  origins : ∀ field, data.fieldOrigins.get field = (carriersIn given field).getLast?.map Prod.fst
  collisions : ∀ field, data.collisions.get field =
    if 2 ≤ (carriersIn given field).length then some ((carriersIn given field).map Prod.fst)
    else none
  collisionValues : ∀ field, data.collisionValues.get field =
    if 2 ≤ (carriersIn given field).length then some (carriersIn given field) else none

theorem Gathered.empty : Gathered [] (MergedData.empty : MergedData V) := by
  constructor <;> intro field <;> rfl

namespace MergedData

variable (data : MergedData V) (branch field : String) (value : V)

@[simp] theorem merged_seed (prior : String) : (data.seed field prior).merged = data.merged := by
  unfold seed
  split <;> rfl

@[simp] theorem fieldOrigins_seed (prior : String) :
    (data.seed field prior).fieldOrigins = data.fieldOrigins := by
  unfold seed
  split <;> rfl

@[simp] theorem merged_collide : (data.collide branch field value).merged = data.merged := by
  unfold collide
  split
  · rfl
  · exact merged_seed data field _

@[simp] theorem fieldOrigins_collide :
    (data.collide branch field value).fieldOrigins = data.fieldOrigins := by
  unfold collide
  split
  · rfl
  · exact fieldOrigins_seed data field _

variable {data branch field value}

/-- A collision concerns no other field. -/
theorem collide_of_ne {other : String} (apart : other ≠ field) :
    (data.collide branch field value).collisions.get other = data.collisions.get other ∧
      (data.collide branch field value).collisionValues.get other =
        data.collisionValues.get other := by
  unfold collide
  split
  · exact ⟨rfl, rfl⟩
  · simp only [Dict.get_set_ne _ apart]
    unfold seed
    split
    · exact ⟨rfl, rfl⟩
    · exact ⟨Dict.get_set_ne _ apart _, Dict.get_set_ne _ apart _⟩

end MergedData

variable {given : List (String × String × V)} {data : MergedData V}

/-- The collision of a field lists every branch that carries it. -/
theorem Gathered.collide_self (gathered : Gathered given data) (branch field : String) (value : V) :
    (data.collide branch field value).collisions.get field =
        (if 2 ≤ (carriersIn given field ++ [(branch, value)]).length then
          some ((carriersIn given field ++ [(branch, value)]).map Prod.fst) else none) ∧
      (data.collide branch field value).collisionValues.get field =
        if 2 ≤ (carriersIn given field ++ [(branch, value)]).length then
          some (carriersIn given field ++ [(branch, value)]) else none := by
  have origin := gathered.origins field
  have stored := gathered.merged field
  have noted := gathered.collisions field
  have kept := gathered.collisionValues field
  unfold MergedData.collide
  match carriers : carriersIn given field with
  | [] =>
    rw [carriers] at origin noted kept
    rw [show data.fieldOrigins.get field = none from origin]
    exact ⟨noted, kept⟩
  | [only] =>
    rw [carriers] at origin stored noted kept
    rw [show data.fieldOrigins.get field = some only.1 from origin]
    have unseen : field ∉ data.collisions.keys := Dict.get_eq_none.mp noted
    simp only [MergedData.seed, if_neg unseen, Dict.get_set_self,
      show data.merged.get field = some only.2 from stored]
    exact ⟨rfl, rfl⟩
  | first :: second :: rest =>
    rw [carriers] at origin noted kept
    obtain ⟨prior, named⟩ : ∃ prior, data.fieldOrigins.get field = some prior := by
      rw [origin]
      exact ⟨_, rfl⟩
    have seen : field ∈ data.collisions.keys := Dict.mem_keys_of_get noted
    simp only [named, MergedData.seed, if_pos seen, Dict.get_set_self, noted, kept]
    simp

theorem Gathered.add (gathered : Gathered given data) (contribution : String × String × V) :
    Gathered (given ++ [contribution]) (data.add contribution) := by
  obtain ⟨branch, field, value⟩ := contribution
  unfold MergedData.add
  refine ⟨?_, ?_, ?_, ?_⟩ <;> intro other <;> rw [carriersIn_snoc] <;>
    by_cases here : other = field
  · subst here
    simp
  · simp [Dict.get_set_ne _ here, Ne.symm here, gathered.merged other]
  · subst here
    simp
  · simp [Dict.get_set_ne _ here, Ne.symm here, gathered.origins other]
  · subst here
    rw [if_pos rfl]
    exact (gathered.collide_self branch other value).1
  · rw [if_neg (Ne.symm here), append_nil, ← gathered.collisions other]
    exact (MergedData.collide_of_ne here).1
  · subst here
    rw [if_pos rfl]
    exact (gathered.collide_self branch other value).2
  · rw [if_neg (Ne.symm here), append_nil, ← gathered.collisionValues other]
    exact (MergedData.collide_of_ne here).2

theorem gathered_foldl (given : List (String × String × V)) :
    Gathered given (given.foldl MergedData.add MergedData.empty) := by
  induction given using reverseRecOn with
  | nil => exact Gathered.empty
  | append_singleton given contribution ih =>
    rw [foldl_append]
    exact ih.add contribution

theorem foldlM_resolveFirst {entries : List (String × List (String × V))}
    (each : ∀ entry ∈ entries, entry.2 = carriersIn given entry.1 ∧ 2 ≤ entry.2.length)
    (resolved : Dict String V × Dict String String) :
    ∃ last, entries.foldlM resolveFirst resolved = .ok last ∧ ∀ field,
      (last.1.get field, last.2.get field) =
        if field ∈ entries.map Prod.fst then
          ((carriersIn given field).head?.map Prod.snd, (carriersIn given field).head?.map Prod.fst)
        else (resolved.1.get field, resolved.2.get field) := by
  induction entries generalizing resolved with
  | nil => exact ⟨resolved, rfl, fun field => rfl⟩
  | cons entry entries ih =>
    obtain ⟨name, values⟩ := entry
    obtain ⟨same, many⟩ := each (name, values) mem_cons_self
    match values, same, many with
    | first :: second :: rest, same, _ =>
      obtain ⟨last, ran, found⟩ := ih
        (fun entry mem => each entry (mem_cons_of_mem _ mem))
        (resolved.1.set name first.2, resolved.2.set name first.1)
      refine ⟨last, ran, fun field => ?_⟩
      rw [found, map_cons]
      by_cases later : field ∈ entries.map Prod.fst
      · rw [if_pos later, if_pos (mem_cons_of_mem _ later)]
      · rw [if_neg later]
        by_cases here : field = name
        · subst here
          rw [if_pos mem_cons_self, Dict.get_set_self, Dict.get_set_self,
            ← show _ = _ from same]
          rfl
        · rw [if_neg (by simp [here, later]), Dict.get_set_ne _ here, Dict.get_set_ne _ here]

theorem head?_of_few {α : Type} {items : List α} (few : ¬2 ≤ items.length) :
    items.head? = items.getLast? := by
  match items with
  | [] | [_] => rfl
  | _ :: _ :: _ => simp at few

/-- Without collisions the first carrier of a field is the last one. -/
theorem Gathered.head?_of_quiet (gathered : Gathered given data)
    (quiet : data.collisions.entries = []) (field : String) :
    (carriersIn given field).head? = (carriersIn given field).getLast? := by
  have none := gathered.collisions field
  rw [show data.collisions.get field = Option.none by simp [Dict.get, quiet]] at none
  exact head?_of_few fun many => by simp [many] at none

/-- First wins: each field gets the value of the first branch that carries it. -/
theorem Gathered.resolveFirstWins (gathered : Gathered given data) :
    ∃ resolved, resolveFirstWins data = .ok resolved ∧ ∀ field,
      (resolved.1.get field, resolved.2.get field) =
        ((carriersIn given field).head?.map Prod.snd,
            (carriersIn given field).head?.map Prod.fst) := by
  have each : ∀ entry ∈ data.collisionValues.entries,
      entry.2 = carriersIn given entry.1 ∧ 2 ≤ entry.2.length := by
    intro entry mem
    have held := gathered.collisionValues entry.1
    rw [Dict.get_eq_some.mpr mem] at held
    split at held
    · rename_i many
      have same := Option.some.inj held
      exact ⟨same, same ▸ many⟩
    · cases held
  obtain ⟨resolved, ran, found⟩ := foldlM_resolveFirst each (data.merged, data.fieldOrigins)
  refine ⟨resolved, ran, fun field => ?_⟩
  rw [found]
  split
  · rfl
  · rename_i absent
    have none := gathered.collisionValues field
    rw [Dict.get_eq_none.mpr absent] at none
    rw [head?_of_few fun many => by simp [many] at none, gathered.merged, gathered.origins]

section Contributions

variable {settings : CoalesceSettings} {rows : Dict String (RowData V)}

variable {field : String}

theorem mem_carriersIn_contributions {carrier : String × V} :
    carrier ∈ carriersIn (contributions settings rows) field ↔
      carrier.1 ∈ settings.branches ∧
        ∃ row, rows.get carrier.1 = some row ∧ row.get field = some carrier.2 := by
  unfold carriersIn contributions
  rw [mem_map]
  constructor
  · rintro ⟨⟨branch, name, value⟩, kept, rfl⟩
    obtain ⟨mem, named⟩ := mem_filter.mp kept
    obtain ⟨other, declared, here⟩ := mem_flatMap.mp mem
    obtain ⟨entry, listed, same⟩ := mem_map.mp here
    cases same
    cases arrived : rows.get branch with
    | none => simp [arrived] at listed
    | some row =>
      have inside : entry ∈ row.entries := by simpa [arrived] using listed
      refine ⟨declared, row, rfl, Dict.get_eq_some.mpr ?_⟩
      rw [← show entry.1 = field from of_decide_eq_true named]
      exact inside
  · rintro ⟨declared, row, arrived, held⟩
    refine ⟨(carrier.1, field, carrier.2), mem_filter.mpr ⟨mem_flatMap.mpr
      ⟨carrier.1, declared, mem_map.mpr ⟨(field, carrier.2), ?_, rfl⟩⟩, decide_eq_true rfl⟩,
      rfl⟩
    simpa [arrived] using Dict.get_eq_some.mp held

/-- The branches whose rows carry a field, in the declared order. -/
theorem carriersIn_contributions (field : String) :
    carriersIn (contributions settings rows) field = settings.branches.filterMap fun branch =>
      ((rows.get branch).bind fun row => row.get field).map fun value => (branch, value) := by
  unfold carriersIn contributions
  induction settings.branches with
  | nil => rfl
  | cons branch branches ih =>
    rw [flatMap_cons, filter_append, map_append, ih, filterMap_cons]
    cases rows.get branch with
    | none => rfl
    | some row =>
      have here : (row.entries.map fun entry => (branch, entry.1, entry.2)).filter
          (fun contribution => contribution.2.1 = field) =
          (row.get field).toList.map fun value => (branch, field, value) := by
        have same := congrArg (map fun entry => (branch, entry.1, entry.2))
          (row.filter_entries field)
        rw [map_map] at same
        rw [filter_map]
        exact same
      simp only [Option.map_some, Option.getD_some, here, Option.bind_some]
      cases row.get field <;> rfl

/-- A union carries exactly the fields of the arrived rows. -/
theorem mem_keys_union :
    field ∈ ((contributions settings rows).foldl MergedData.add MergedData.empty).merged.keys ↔
      ∃ branch ∈ settings.branches, ∃ row, rows.get branch = some row ∧ field ∈ row.keys := by
  rw [Dict.mem_keys, (gathered_foldl _).merged]
  constructor
  · rintro ⟨value, last⟩
    obtain ⟨carrier, listed, -⟩ := Option.map_eq_some_iff.mp last
    obtain ⟨declared, row, arrived, held⟩ :=
      mem_carriersIn_contributions.mp (mem_of_getLast? listed)
    exact ⟨carrier.1, declared, row, arrived, Dict.mem_keys_of_get held⟩
  · rintro ⟨branch, declared, row, arrived, mem⟩
    obtain ⟨value, held⟩ := Dict.mem_keys.mp mem
    have carries : (branch, value) ∈ carriersIn (contributions settings rows) field :=
      mem_carriersIn_contributions.mpr ⟨declared, row, arrived, held⟩
    rw [getLast?_eq_some_getLast (ne_nil_of_mem carries)]
    exact ⟨_, rfl⟩

theorem mem_keys_nestedRow {nest : RowData V → V} :
    field ∈ (nestedRow nest settings rows).keys ↔ field ∈ settings.branches ∧
        field ∈ rows.keys := by
  unfold nestedRow
  rw [Dict.mem_keys_ofList, mem_map]
  constructor
  · rintro ⟨entry, listed, rfl⟩
    obtain ⟨branch, declared, held⟩ := mem_filterMap.mp listed
    obtain ⟨row, arrived, rfl⟩ := Option.map_eq_some_iff.mp held
    exact ⟨declared, Dict.mem_keys_of_get arrived⟩
  · rintro ⟨declared, mem⟩
    obtain ⟨row, arrived⟩ := Dict.mem_keys.mp mem
    exact ⟨(field, nest row), mem_filterMap.mpr ⟨field, declared, by rw [arrived]; rfl⟩, rfl⟩

end Contributions

/-! ## Who arrives -/

/-- Whether the coalesce merges only once every branch has arrived. -/
def CoalesceSettings.hasAllBranchSemantics (settings : CoalesceSettings) : Bool :=
  settings.policy = .requireAll ||
    (settings.policy = .quorum && settings.quorumCount = some settings.branches.length)

namespace Arrivals

variable {settings : CoalesceSettings} (arrivals : Arrivals settings V)

variable {branch : String}

/-- As many arrivals as branches are all of the branches. -/
theorem all_arrived (enough : settings.branches.length ≤ arrivals.rows.size)
    (declared : branch ∈ settings.branches) : branch ∈ arrivals.rows.keys := by
  have inside : arrivals.rows.keys.Subperm settings.branches :=
    arrivals.rows.nodup_keys.subperm arrivals.expected
  have same := inside.perm_of_length_le (by rwa [Dict.length_keys])
  exact same.mem_iff.mpr declared

variable {arrivals}

/-- Where every branch is needed, every branch has arrived. -/
theorem arrived_of_allBranchSemantics (all : settings.hasAllBranchSemantics)
    (admits : settings.Admits arrivals.rows.size) (declared : branch ∈ settings.branches) :
    branch ∈ arrivals.rows.keys := by
  refine arrivals.all_arrived ?_ declared
  unfold CoalesceSettings.Admits at admits
  rcases (Bool.or_eq_true _ _).mp all with requires | counts
  · rw [of_decide_eq_true requires] at admits
    exact (show arrivals.rows.size = _ from admits).ge
  · obtain ⟨quorum, count⟩ := (Bool.and_eq_true _ _).mp counts
    rw [of_decide_eq_true quorum] at admits
    obtain ⟨needed, set, enough⟩ := admits
    rw [of_decide_eq_true count] at set
    cases set
    exact enough

/-- A merge has at least one arrived branch. -/
theorem exists_arrived (admits : settings.Admits arrivals.rows.size) :
    ∃ branch ∈ settings.branches, ∃ row, arrivals.rows.get branch = some row := by
  have some_arrived : 0 < arrivals.rows.keys.length := by
    rw [Dict.length_keys]
    exact admits.pos
  obtain ⟨branch, mem⟩ := exists_mem_of_length_pos some_arrived
  exact ⟨branch, arrivals.expected branch mem, Dict.mem_keys.mp mem⟩

end Arrivals

end Elspeth.Coalesce
