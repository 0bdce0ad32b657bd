import Mathlib.Algebra.Order.BigOperators.Group.Finset
import Mathlib.Algebra.Ring.Int.Defs
import Mathlib.Data.List.Sort
import Ironclaw.Lib.Table

/-!
# Tables written out as lists and collected again

A hash map is walked in some order of its keys, its values are sorted and written
out, and a later walk over the rows builds the map anew.  Whatever the two orders
are, the map that comes back is the one that was written.
-/

namespace Ironclaw.Lib

open List

def sortByKey {α β : Type} [LE β] [DecidableLE β] (key : α → β) (rows : List α) : List α :=
  rows.insertionSort fun first second => key first ≤ key second

theorem sortByKey_perm {α β : Type} [LE β] [DecidableLE β] (key : α → β) (rows : List α) :
    (sortByKey key rows).Perm rows :=
  perm_insertionSort _ rows

namespace Table

variable {κ ν : Type} [DecidableEq κ]

/-- `order` names every key of the table once. -/
structure IteratedBy (table : Table κ ν) (order : List κ) : Prop where
  nodup : order.Nodup
  mem_iff : ∀ key, key ∈ order ↔ (table.get key).isSome = true

variable {rows : List ν} {test : ν → Bool} {key : ν → κ}
    {order : List κ} {table : Table κ ν}

theorem iteratedBy_iff_keys :
    table.IteratedBy order ↔ order.Nodup ∧ order.toFinset = table.keys := by
  refine ⟨fun iterated => ⟨iterated.nodup, ?_⟩, fun ⟨nodup, keys⟩ => ⟨nodup, fun key => ?_⟩⟩
  · ext key
    rw [mem_toFinset, iterated.mem_iff, mem_keys]
  · rw [← mem_keys, ← keys, mem_toFinset]

instance : Decidable (table.IteratedBy order) := decidable_of_iff' _ iteratedBy_iff_keys

def valuesIn (table : Table κ ν) (order : List κ) : List ν := order.filterMap table.get

section

variable {α : Type} (key : α → κ) (value : α → ν)

/-- Store the values of the rows under their keys; a later row replaces an earlier one. -/
def collectWith : List α → Table κ ν → Table κ ν
  | [], table => table
  | row :: rest, table => collectWith rest (table.insert (key row) (value row))

theorem get_collectWith (rows : List α) (distinct : (rows.map key).Nodup) (table : Table κ ν)
    (other : κ) : (collectWith key value rows table).get other =
      ((rows.find? fun row => key row = other).map value).or (table.get other) := by
  induction rows generalizing table with
  | nil => rfl
  | cons row rest ih =>
    rw [map_cons, nodup_cons] at distinct
    rw [collectWith, ih distinct.2, get_insert, find?_cons]
    by_cases same : key row = other
    · have missing : rest.find? (fun candidate => key candidate = other) = none := by
        rw [find?_eq_none]
        intro candidate member found
        exact distinct.1 (mem_map.mpr
          ⟨candidate, member, (of_decide_eq_true found).trans same.symm⟩)
      simp [same, missing]
    · simp [same, Ne.symm same]

variable {key value} in
theorem get_collectWith_iff {rows : List α} (distinct : (rows.map key).Nodup) (other : κ)
    (stored : ν) : (collectWith key value rows .empty).get other = some stored ↔
      ∃ row ∈ rows, key row = other ∧ value row = stored := by
  rw [get_collectWith key value rows distinct, get_empty, Option.or_none, Option.map_eq_some_iff]
  constructor
  · rintro ⟨row, found, rfl⟩
    exact ⟨row, mem_of_find?_eq_some found, by simpa using find?_some found, rfl⟩
  · rintro ⟨row, member, rfl, rfl⟩
    cases found : rows.find? fun candidate => key candidate = key row with
    | none =>
      have absent := find?_eq_none.mp found row member
      simp at absent
    | some candidate =>
      have same : key candidate = key row := by simpa using find?_some found
      exact ⟨candidate, rfl, congrArg value
        (inj_on_of_nodup_map distinct (mem_of_find?_eq_some found) member same)⟩

theorem iteratedBy_collectWith {rows : List α} (distinct : (rows.map key).Nodup) :
    (collectWith key value rows .empty).IteratedBy (rows.map key) := by
  refine ⟨distinct, fun other => ?_⟩
  rw [mem_map, Option.isSome_iff_exists]
  constructor
  · rintro ⟨row, member, rfl⟩
    exact ⟨value row, (get_collectWith_iff distinct _ _).mpr ⟨row, member, rfl, rfl⟩⟩
  · rintro ⟨_, found⟩
    obtain ⟨row, member, same, _⟩ := (get_collectWith_iff distinct _ _).mp found
    exact ⟨row, member, same⟩

end

/-- The table built from rows that know their keys. -/
def collectInto (key : ν → κ) : List ν → Table κ ν → Table κ ν := collectWith key id

def collect (key : ν → κ) (rows : List ν) : Table κ ν := collectInto key rows .empty

theorem mem_valuesIn (iterated : table.IteratedBy order) {row : ν} :
    row ∈ table.valuesIn order ↔ ∃ key, table.get key = some row := by
  rw [valuesIn, mem_filterMap]
  constructor
  · rintro ⟨key, _, found⟩
    exact ⟨key, found⟩
  · rintro ⟨key, found⟩
    exact ⟨key, (iterated.mem_iff key).mpr (by rw [found]; rfl), found⟩

theorem IteratedBy.insert (iterated : table.IteratedBy order) (key : κ) (value : ν) :
    (table.insert key value).IteratedBy
      (if table.containsKey key then order else order ++ [key]) := by
  have listed := iterated.mem_iff key
  unfold containsKey
  split
  next present =>
    refine ⟨iterated.nodup, fun other => ?_⟩
    rw [get_insert]
    split
    · rename_i same
      simp [same, listed, present]
    · exact iterated.mem_iff other
  next absent =>
    refine ⟨?_, fun other => ?_⟩
    · rw [nodup_append]
      refine ⟨iterated.nodup, nodup_singleton key, ?_⟩
      rintro other member _ (_ | ⟨_, ⟨⟩⟩) rfl
      exact absent (listed.mp member)
    · rw [mem_append, mem_singleton, get_insert]
      split
      · rename_i same
        simp [same]
      · rename_i different
        simp [different, iterated.mem_iff other]

theorem IteratedBy.tail {key : κ} {rest : List κ} (iterated : table.IteratedBy (key :: rest)) :
    (table.remove key).IteratedBy rest := by
  have distinct := nodup_cons.mp iterated.nodup
  refine ⟨distinct.2, fun other => ?_⟩
  rw [get_remove]
  split
  next same => simp [same, distinct.1]
  next different =>
    rw [← iterated.mem_iff other, mem_cons]
    simp [different]

theorem map_key_valuesIn_nodup (keyed : ∀ {place row}, table.get place = some row → key row = place)
    (nodup : order.Nodup) : ((table.valuesIn order).map key).Nodup := by
  have written : (table.valuesIn order).map key = order.filter (table.get · |>.isSome) := by
    rw [valuesIn, map_filterMap, ← filterMap_eq_filter]
    congr
    funext place
    cases found : table.get place with
    | none => simp [Option.guard, found]
    | some => simp [Option.guard, found, keyed found]
  rw [written]
  exact nodup.filter _

/-- Writing a table out in any order and collecting the rows in any order gives the
table back. -/
theorem collect_of_perm (iterated : table.IteratedBy order)
    (keyed : ∀ {place row}, table.get place = some row → key row = place)
    (written : rows.Perm (table.valuesIn order)) : collect key rows = table := by
  have distinct : (rows.map key).Nodup :=
    ((written.map key).nodup_iff).mpr (map_key_valuesIn_nodup keyed iterated.nodup)
  apply ext
  intro other
  apply Option.ext
  intro row
  rw [collect, collectInto, get_collectWith_iff distinct]
  constructor
  · rintro ⟨_, member, same, rfl⟩
    obtain ⟨_, found⟩ := (mem_valuesIn iterated).mp (written.mem_iff.mp member)
    rwa [← same, keyed found]
  · intro found
    exact ⟨row, written.mem_iff.mpr ((mem_valuesIn iterated).mpr ⟨other, found⟩), keyed found, rfl⟩

theorem get_foldl_remove (keys : List κ) (table : Table κ ν) (key : κ) :
    (keys.foldl remove table).get key = if key ∈ keys then none else table.get key := by
  induction keys generalizing table with
  | nil => rfl
  | cons first _ ih =>
    rw [foldl_cons, ih, get_remove]
    by_cases same : key = first
    · simp [same]
    · simp [same]

/-! ## Counting -/

theorem count_map_filter (iterated : table.IteratedBy order)
    (keyed : ∀ {place row}, table.get place = some row → key row = place)
    (written : rows.Perm (table.valuesIn order)) (test : ν → Bool) (other : κ) :
    ((rows.filter test).map key).count other = ((table.get other).any test).toNat := by
  have distinct : (rows.map key).Nodup :=
    ((written.map key).nodup_iff).mpr (map_key_valuesIn_nodup keyed iterated.nodup)
  rw [((filter_sublist.map key).nodup distinct).count]
  have listed : other ∈ (rows.filter test).map key ↔ (table.get other).any test = true := by
    rw [mem_map, Option.any_eq_true]
    constructor
    · rintro ⟨row, member, rfl⟩
      obtain ⟨writtenRow, passes⟩ := mem_filter.mp member
      obtain ⟨_, found⟩ := (mem_valuesIn iterated).mp (written.mem_iff.mp writtenRow)
      exact ⟨row, keyed found ▸ found, passes⟩
    · rintro ⟨row, found, passes⟩
      have member := written.mem_iff.mpr ((mem_valuesIn iterated).mpr ⟨other, found⟩)
      exact ⟨row, mem_filter.mpr ⟨member, passes⟩, keyed found⟩
  cases passes : (table.get other).any test <;> simp [listed, passes]

theorem mem_passing {place : κ} : place ∈ (table.keys.filter fun key => (table.get key).any test) ↔
    (table.get place).any test = true := by
  rw [Finset.mem_filter, mem_keys, and_iff_right_iff_imp]
  intro passes
  obtain ⟨_, found, _⟩ := (Option.any_eq_true _ _).mp passes
  rw [found]
  rfl

variable {μ : Type} {first : Table κ ν} {second : Table κ μ} {other : μ → Bool}

theorem countValues_mono
    (implied : ∀ key, (first.get key).any test = true → (second.get key).any other = true) :
    first.countValues test ≤ second.countValues other :=
  Finset.card_le_card fun key listed => mem_passing.mpr (implied key (mem_passing.mp listed))

theorem countValues_congr (same : ∀ key, (first.get key).any test = (second.get key).any other) :
    first.countValues test = second.countValues other :=
  Nat.le_antisymm (countValues_mono fun key => (same key).symm.trans)
    (countValues_mono fun key => (same key).trans)

theorem countValues_insert (table : Table κ ν) (key : κ) (value : ν) (test : ν → Bool) :
    (table.insert key value).countValues test + ((table.get key).any test).toNat =
      table.countValues test + (test value).toNat := by
  have others : ∀ passing : Table κ ν, (∀ other, other ≠ key → passing.get other =
      table.get other) → passing.countValues test =
      ((table.keys.filter fun other => (table.get other).any test).erase key).card +
        ((passing.get key).any test).toNat := by
    intro passing agrees
    have same : (passing.keys.filter fun other => (passing.get other).any test).erase key =
        (table.keys.filter fun other => (table.get other).any test).erase key := by
      ext other
      simp only [Finset.mem_erase, mem_passing]
      exact and_congr_right fun different => by rw [agrees other different]
    rw [← same, countValues]
    cases passes : (passing.get key).any test with
    | true => exact (Finset.card_erase_add_one (mem_passing.mpr passes)).symm
    | false =>
      rw [Finset.erase_eq_of_notMem (by simp [passes])]
      rfl
  have after := others (table.insert key value) fun other different =>
    get_insert_of_ne table value different
  have before := others table fun _ _ => rfl
  rw [get_insert_self] at after
  simp only [Option.any_some] at after
  omega

theorem countValues_remove (table : Table κ ν) (key : κ) (test : ν → Bool) :
    (table.remove key).countValues test + ((table.get key).any test).toNat =
      table.countValues test := by
  cases found : table.get key with
  | none =>
    rw [Option.any_none, Bool.toNat_false, Nat.add_zero]
    apply countValues_congr
    intro _
    rw [get_remove]
    split
    next same => rw [same, found]
    · rfl
  | some value =>
    have restored := countValues_insert (table.remove key) key value test
    rw [insert_remove_self, insert_of_get found, get_remove_self] at restored
    simp only [Option.any_none, Bool.toNat_false, Nat.add_zero] at restored
    rw [Option.any_some, restored]

theorem countValues_eq_length (iterated : table.IteratedBy order) (test : ν → Bool) :
    table.countValues test = ((table.valuesIn order).filter test).length := by
  have listed : (table.keys.filter fun key => (table.get key).any test) =
      (order.filter fun key => (table.get key).any test).toFinset := by
    ext key
    simp [mem_keys, iterated.mem_iff]
  rw [countValues, listed, toFinset_card_of_nodup (iterated.nodup.filter _)]
  clear listed iterated
  unfold valuesIn
  induction order with
  | nil => rfl
  | cons first _ ih =>
    cases found : table.get first with
    | none => simpa [filterMap_cons, filter_cons, found] using ih
    | some row =>
      cases passes : test row with
      | true | false => simpa [filterMap_cons, filter_cons, found, passes] using ih

end Table

/-! ## Sums over tables -/

namespace Table

open Finset Option

variable {κ ν : Type} [DecidableEq κ]

def sumValues (table : Table κ ν) (measure : ν → Int) : Int :=
  ∑ key ∈ table.keys, ((table.get key).map measure).getD 0

theorem sumValues_eq_of_subset {table : Table κ ν} {keys : Finset κ} (covers : table.keys ⊆ keys)
    (measure : ν → Int) :
    table.sumValues measure = ∑ key ∈ keys, ((table.get key).map measure).getD 0 := by
  refine sum_subset covers fun key _ absent => ?_
  rw [mem_keys, Bool.not_eq_true, isSome_eq_false_iff, isNone_iff_eq_none] at absent
  rw [absent]
  rfl

theorem sumValues_insert (table : Table κ ν) (key : κ) (value : ν) (measure : ν → Int) :
    (table.insert key value).sumValues measure + ((table.get key).map measure).getD 0 =
      table.sumValues measure + measure value := by
  have covers : table.keys ⊆ Insert.insert key table.keys := subset_insert _ _
  have sameElsewhere : ∀ other ∈ (Insert.insert key table.keys).erase key,
      (((table.insert key value).get other).map measure).getD 0 =
        ((table.get other).map measure).getD 0 := by
    intro other member
    rw [get_insert_of_ne _ _ (ne_of_mem_erase member)]
  have inserted : key ∈ Insert.insert key table.keys := mem_insert_self _ _
  rw [sumValues_eq_of_subset covers, sumValues, keys_insert,
    ← add_sum_erase _ _ inserted, ← add_sum_erase _ _ inserted,
    sum_congr rfl sameElsewhere, get_insert_self, map_some, getD_some]
  omega

theorem le_sumValues {table : Table κ ν} {measure : ν → Int} {key : κ} {value : ν}
    (found : table.get key = some value)
    (nonneg : ∀ other stored, table.get other = some stored → 0 ≤ measure stored) :
    measure value ≤ table.sumValues measure := by
  have member : key ∈ table.keys := by
    rw [mem_keys, found]
    rfl
  have single := single_le_sum (f := fun other => ((table.get other).map measure).getD 0)
    (s := table.keys) (fun other _ => ?_) member
  · rwa [found] at single
  · cases stored : table.get other with
    | none => exact le_refl 0
    | some row => exact nonneg other row stored

theorem sumValues_eq_sum {table : Table κ ν} {order : List κ} (iterated : table.IteratedBy order)
    (measure : ν → Int) : table.sumValues measure = ((table.valuesIn order).map measure).sum := by
  have keys : table.keys = order.toFinset := by
    ext key
    rw [mem_keys, List.mem_toFinset, iterated.mem_iff]
  rw [sumValues, keys, List.sum_toFinset _ iterated.nodup]
  clear keys iterated
  unfold valuesIn
  induction order with
  | nil => rfl
  | cons first _ ih =>
    cases found : table.get first with
    | none | some => simp [found, ih]

end Table

end Ironclaw.Lib
