import Mathlib.Data.Finmap

/-!
# Keyed tables

Hash maps are modelled by Mathlib's finite maps with values of one type.  A table
has no order, so two tables with the same entries are equal.  Every operation is
described by what `get` returns afterwards.
-/

namespace Ironclaw.Lib

open Finmap
/-- A finite map whose values all have one type. -/
def Table (κ ν : Type) : Type := Finmap (fun _ : κ => ν)

namespace Table

variable {κ ν : Type}

def empty : Table κ ν := (∅ : Finmap (fun _ : κ => ν))

def keys (table : Table κ ν) : Finset κ := Finmap.keys table

variable [DecidableEq κ]

def get (table : Table κ ν) (key : κ) : Option ν := lookup key table

def insert (table : Table κ ν) (key : κ) (value : ν) : Table κ ν := Finmap.insert key value table

def remove (table : Table κ ν) (key : κ) : Table κ ν := erase key table

def containsKey (table : Table κ ν) (key : κ) : Bool := (table.get key).isSome

/-- Update the stored value in place; a missing key stays missing. -/
def modify (table : Table κ ν) (key : κ) (change : ν → ν) : Table κ ν :=
  match table.get key with
  | some value => table.insert key (change value)
  | none => table

/-- Store the value, or take the entry out if there is none. -/
def writeOptional (table : Table κ ν) (key : κ) : Option ν → Table κ ν
  | some value => table.insert key value
  | none => table.remove key

def insertSome (table : Table κ ν) (key : κ) : Option ν → Table κ ν
  | some value => table.insert key value
  | none => table

/-- Keep the entries whose key passes the test. -/
def retain (table : Table κ ν) (test : κ → Bool) : Table κ ν where
  entries := (entries table).filter fun entry => test entry.1
  nodupKeys := Multiset.nodup_keys.mp
    (Multiset.nodup_of_le (Multiset.map_le_map (Multiset.filter_le _ _))
      (nodupKeys table).nodup_keys)

def mapValues (table : Table κ ν) (change : ν → ν) : Table κ ν where
  entries := (entries table).map fun entry => ⟨entry.1, change entry.2⟩
  nodupKeys := by
    refine Multiset.nodup_keys.mp ?_
    rw [Multiset.keys, Multiset.map_map]
    exact (nodupKeys table).nodup_keys

def anyValue (table : Table κ ν) (test : ν → Bool) : Bool :=
  decide (∃ key ∈ table.keys, (table.get key).any test)

def countValues (table : Table κ ν) (test : ν → Bool) : Nat :=
  (table.keys.filter fun key => (table.get key).any test).card

theorem ext {first second : Table κ ν} (same : ∀ key, first.get key = second.get key) :
    first = second :=
  ext_lookup same

theorem get_eq_some {table : Table κ ν} {key : κ} {value : ν} :
    table.get key = some value ↔ ⟨key, value⟩ ∈ entries table :=
  mem_lookup_iff

theorem mem_keys {table : Table κ ν} {key : κ} : key ∈ table.keys ↔ (table.get key).isSome := by
  exact (Finmap.mem_keys.trans Finmap.mem_iff).trans Option.isSome_iff_exists.symm

@[simp]
theorem get_empty (key : κ) : (empty : Table κ ν).get key = none := lookup_empty key

variable (table : Table κ ν) (key other : κ) (value : Option ν) (change : ν → ν)

theorem get_insert (value : ν) :
    (table.insert key value).get other = if other = key then some value else table.get other := by
  unfold insert get
  split
  next same =>
    subst same
    exact lookup_insert table
  next different => exact lookup_insert_of_ne table different

@[simp]
theorem get_insert_self (key : κ) (value : ν) : (table.insert key value).get key = some value := by
  rw [get_insert, if_pos rfl]

theorem get_insert_of_ne {key other : κ} (value : ν) (different : other ≠ key) :
    (table.insert key value).get other = table.get other := by
  rw [get_insert, if_neg different]

theorem keys_insert (key : κ) (value : ν) :
    (table.insert key value).keys = Insert.insert key table.keys := by
  ext other
  rw [Finset.mem_insert, mem_keys, mem_keys, get_insert]
  split
  · simp [*]
  · simp [*]

theorem get_remove :
    (table.remove key).get other = if other = key then none else table.get other := by
  unfold remove get
  split
  next same =>
    subst same
    exact lookup_erase other table
  next different => exact lookup_erase_ne different

@[simp]
theorem get_remove_self (key : κ) : (table.remove key).get key = none := by
  rw [get_remove, if_pos rfl]

theorem get_remove_of_ne {key other : κ} (different : other ≠ key) :
    (table.remove key).get other = table.get other := by
  rw [get_remove, if_neg different]

theorem get_of_remove {table : Table κ ν} {key other : κ} {value : ν}
    (stored : (table.remove key).get other = some value) : table.get other = some value := by
  rw [get_remove] at stored
  split at stored
  · cases stored
  · exact stored

theorem get_retain (test : κ → Bool) (key : κ) :
    (table.retain test).get key = if test key then table.get key else none := by
  apply Option.ext
  intro _
  rw [get_eq_some, retain, Multiset.mem_filter, ← get_eq_some]
  split <;> simp_all

theorem get_mapValues (key : κ) :
    (table.mapValues change).get key = (table.get key).map change := by
  apply Option.ext
  intro _
  rw [get_eq_some, mapValues, Multiset.mem_map, Option.map_eq_some_iff]
  constructor
  · rintro ⟨⟨_, stored⟩, member, same⟩
    cases same
    exact ⟨stored, get_eq_some.mpr member, rfl⟩
  · rintro ⟨stored, found, same⟩
    exact ⟨⟨key, stored⟩, get_eq_some.mp found, by rw [same]⟩

theorem get_modify : (table.modify key change).get other =
      if other = key then (table.get key).map change else table.get other := by
  unfold modify
  cases found : table.get key with
  | none =>
    by_cases same : other = key
    · subst same
      simp [found]
    · simp [same]
  | some => simp [get_insert]

theorem get_writeOptional :
    (table.writeOptional key value).get other = if other = key then value else table.get other := by
  cases value with
  | none => exact table.get_remove key other
  | some value => exact table.get_insert key other value

theorem get_insertSome : (table.insertSome key value).get other =
      if other = key then value.or (table.get other) else table.get other := by
  cases value with
  | none => simp [insertSome]
  | some value => exact table.get_insert key other value

theorem modify_of_get {table : Table κ ν} {key : κ} {value : ν}
    (found : table.get key = some value) :
    table.modify key change = table.insert key (change value) := by
  simp [modify, found]

@[simp]
theorem insert_remove_self (key : κ) (value : ν) :
    (table.remove key).insert key value = table.insert key value := by
  apply ext
  intro other
  simp only [get_insert, get_remove]
  split <;> rfl

theorem insert_of_get {table : Table κ ν} {key : κ} {value : ν}
    (found : table.get key = some value) : table.insert key value = table := by
  apply ext
  intro _
  rw [get_insert]
  split
  next same => rw [same, found]
  · rfl

theorem anyValue_iff (test : ν → Bool) : table.anyValue test = true ↔
      ∃ key value, table.get key = some value ∧ test value = true := by
  unfold anyValue
  rw [decide_eq_true_iff]
  constructor
  · rintro ⟨key, _, passes⟩
    obtain ⟨value, found, holds⟩ := (Option.any_eq_true _ _).mp passes
    exact ⟨key, value, found, holds⟩
  · rintro ⟨key, _, found, holds⟩
    exact ⟨key, mem_keys.mpr (by simp [found]), by simp [found, holds]⟩

end Table

/-! ## States seen as tables -/

theorem view_foldl {σ κ ν : Type} [DecidableEq κ] (view : σ → κ → ν) (step : σ → κ → σ)
    (change : κ → ν → ν) (changes : ∀ state key other, view (step state key) other =
      if other = key then change other (view state other) else view state other)
    {keys : List κ} (nodup : keys.Nodup) (state : σ) (other : κ) :
    view (keys.foldl step state) other =
      if other ∈ keys then change other (view state other) else view state other := by
  induction keys generalizing state with
  | nil => rfl
  | cons key _ ih =>
    obtain ⟨first, distinct⟩ := List.nodup_cons.mp nodup
    rw [List.foldl_cons, ih distinct, changes]
    by_cases same : other = key
    · subst same
      simp [first]
    · simp [same]

theorem foldl_keeps {σ κ ν : Type} (read : σ → ν) (step : σ → κ → σ)
    (keeps : ∀ state key, read (step state key) = read state) (keys : List κ) (state : σ) :
    read (keys.foldl step state) = read state := by
  induction keys generalizing state with
  | nil => rfl
  | cons _ _ ih => rw [List.foldl_cons, ih, keeps]

end Ironclaw.Lib
