import Mathlib.Algebra.Order.BigOperators.Group.Finset
import Mathlib.Data.Finset.Max
import Mathlib.Data.Prod.Lex
import Ironclaw.Lib.Table

/-!
# Tables whose keys have owners

The keys of one owner are a part of the table of their own: operations on the keys of another
owner leave it as it is, and what is computed from it is the same in every table that agrees
on it.  Among the keys of an owner the one of the lowest rank is chosen, by a fixed order
where ranks are equal.
-/

namespace Ironclaw.Lib

open Finset

/-- The least element of a finite set, if it has one. -/
def least {α : Type} [LinearOrder α] (set : Finset α) : Option α :=
  if nonempty : set.Nonempty then some (set.min' nonempty) else none

theorem mem_of_least {α : Type} [LinearOrder α] {set : Finset α} {found : α}
    (chosen : least set = some found) : found ∈ set := by
  unfold least at chosen
  split at chosen
  next nonempty =>
    cases chosen
    exact set.min'_mem nonempty
  · cases chosen

theorem least_eq_none {α : Type} [LinearOrder α] {set : Finset α} (absent : least set = none) :
    set = ∅ := by
  unfold least at absent
  split at absent
  · cases absent
  next empty => exact not_nonempty_iff_eq_empty.mp empty

namespace Table

variable {κ ν : Type} [DecidableEq κ]

def filterMap (table : Table κ ν) (change : κ → ν → Option ν) : Table κ ν where
  entries := (Finmap.entries table).filterMap fun entry =>
    (change entry.1 entry.2).map fun value => ⟨entry.1, value⟩
  nodupKeys := by
    refine Multiset.nodup_keys.mp (Multiset.nodup_of_le ?_ (Finmap.nodupKeys table).nodup_keys)
    induction Finmap.entries table using Multiset.induction_on with
    | empty => exact le_rfl
    | cons entry rest ih =>
      cases kept : change entry.1 entry.2 with
      | none =>
        rw [Multiset.filterMap_cons_none _ _ (by simp [kept])]
        exact ih.trans (by simp [Multiset.keys, Multiset.le_cons_self])
      | some value =>
        rw [Multiset.filterMap_cons_some _ _ _ (by simp [kept]; rfl)]
        simpa [Multiset.keys] using ih

variable (table : Table κ ν) (change : κ → ν → Option ν) (key : κ)

theorem get_filterMap : (table.filterMap change).get key = (table.get key).bind (change key) := by
  apply Option.ext
  intro _
  rw [get_eq_some, filterMap, Multiset.mem_filterMap, Option.bind_eq_some_iff]
  constructor
  · rintro ⟨⟨_, stored⟩, member, same⟩
    obtain ⟨_, kept, equal⟩ := Option.map_eq_some_iff.mp same
    cases equal
    exact ⟨stored, get_eq_some.mpr member, kept⟩
  · rintro ⟨stored, found, kept⟩
    exact ⟨⟨key, stored⟩, get_eq_some.mp found, by simp [kept]⟩

theorem keys_mono {table after : Table κ ν}
    (kept : ∀ key, (after.get key).isSome = true → (table.get key).isSome = true) :
    after.keys ⊆ table.keys :=
  fun key present => mem_keys.mpr (kept key (mem_keys.mp present))

theorem keys_remove_subset : (table.remove key).keys ⊆ table.keys := by
  refine keys_mono fun other present => ?_
  rw [get_remove] at present
  split at present
  · cases present
  · exact present

theorem keys_filterMap_subset : (table.filterMap change).keys ⊆ table.keys := by
  refine keys_mono fun key present => ?_
  rw [get_filterMap] at present
  cases found : table.get key with
  | none => rw [found] at present; cases present
  | some => rfl

end Table

/-! ## The keys of an owner -/

section

variable {κ ν ω : Type} [DecidableEq ω] {owner : κ → ω} {mine : ω}

def Table.keysOf (owner : κ → ω) (mine : ω) (table : Table κ ν) : Finset κ :=
  table.keys.filter fun key => owner key = mine

namespace Table

theorem mem_keysOf {table : Table κ ν} {key : κ} :
    key ∈ table.keysOf owner mine ↔ key ∈ table.keys ∧ owner key = mine :=
  mem_filter

theorem keysOf_mono {table after : Table κ ν} (kept : after.keys ⊆ table.keys) (mine : ω) :
    after.keysOf owner mine ⊆ table.keysOf owner mine :=
  filter_subset_filter _ kept

theorem card_keys_eq_sum {table : Table κ ν} {owners : Finset ω}
    (owned : ∀ key ∈ table.keys, owner key ∈ owners) :
    table.keys.card = ∑ mine ∈ owners, (table.keysOf owner mine).card :=
  card_eq_sum_card_fiberwise owned

variable [DecidableEq κ] {table : Table κ ν} {key : κ}

theorem card_keysOf_insert_le (table : Table κ ν) (key : κ) (value : ν) (mine : ω) :
    ((table.insert key value).keysOf owner mine).card ≤ (table.keysOf owner mine).card + 1 := by
  rw [keysOf, keys_insert, filter_insert]
  split
  · exact card_insert_le _ _
  · exact Nat.le_succ _

theorem card_keysOf_remove (present : key ∈ table.keysOf owner mine) :
    ((table.remove key).keysOf owner mine).card + 1 = (table.keysOf owner mine).card := by
  have removed : (table.remove key).keysOf owner mine = (table.keysOf owner mine).erase key := by
    ext other
    rw [mem_keysOf, mem_keys, get_remove, mem_erase, mem_keysOf, mem_keys]
    split <;> simp_all
  rw [removed]
  exact card_erase_add_one present

end Table

end

/-! ## Agreement -/

/-- The two tables hold the same entries of an owner. -/
def Table.AgreeOn {κ ν ω : Type} [DecidableEq κ] (owner : κ → ω) (mine : ω)
    (first second : Table κ ν) : Prop :=
  ∀ key, owner key = mine → first.get key = second.get key

namespace Table.AgreeOn

section

variable {κ ν ω : Type} [DecidableEq κ] {owner : κ → ω} {mine : ω}
variable {first second : Table κ ν} {key : κ}

theorem refl (mine : ω) (table : Table κ ν) : AgreeOn owner mine table table := fun _ _ => rfl

theorem trans {third : Table κ ν} (left : AgreeOn owner mine first second)
    (right : AgreeOn owner mine second third) : AgreeOn owner mine first third :=
  fun key own => (left key own).trans (right key own)

theorem insert (agree : AgreeOn owner mine first second) (key : κ) (value : ν) :
    AgreeOn owner mine (first.insert key value) (second.insert key value) := by
  intro other own
  rw [get_insert, get_insert, agree other own]

theorem remove (agree : AgreeOn owner mine first second) (key : κ) :
    AgreeOn owner mine (first.remove key) (second.remove key) := by
  intro other own
  rw [get_remove, get_remove, agree other own]

theorem insert_other (table : Table κ ν) (value : ν) (others : owner key ≠ mine) :
    AgreeOn owner mine (table.insert key value) table := by
  intro _ own
  refine get_insert_of_ne _ _ ?_
  rintro rfl
  exact others own

theorem remove_other (table : Table κ ν) (others : owner key ≠ mine) :
    AgreeOn owner mine (table.remove key) table := by
  intro _ own
  refine get_remove_of_ne _ ?_
  rintro rfl
  exact others own

end

theorem keysOf_eq {κ ν ω : Type} [DecidableEq κ] [DecidableEq ω] {owner : κ → ω} {mine : ω}
    {first second : Table κ ν} (agree : AgreeOn owner mine first second) :
    first.keysOf owner mine = second.keysOf owner mine := by
  ext key
  rw [mem_keysOf, mem_keysOf, mem_keys, mem_keys]
  exact and_congr_left fun own => by rw [agree key own]

end Table.AgreeOn

/-! ## The key of the lowest rank -/

section

variable {κ ν α : Type} [DecidableEq κ] [LinearOrder κ] [LinearOrder α]

/-- The key of the lowest rank among those given, with its rank. -/
def Table.lowest (rank : Option ν → α) (keys : Finset κ) (table : Table κ ν) : Option (α ×ₗ κ) :=
  least (keys.image fun key => toLex (rank (table.get key), key))

namespace Table

variable {rank : Option ν → α} {keys : Finset κ} {table first second : Table κ ν}

theorem mem_of_lowest {found : α ×ₗ κ} (chosen : table.lowest rank keys = some found) :
    (ofLex found).2 ∈ keys := by
  obtain ⟨_, member, rfl⟩ := mem_image.mp (mem_of_least chosen)
  exact member

theorem eq_empty_of_lowest (absent : table.lowest rank keys = none) : keys = ∅ :=
  image_eq_empty.mp (least_eq_none absent)

theorem AgreeOn.lowest_eq {ω : Type} [DecidableEq ω] {owner : κ → ω} {mine : ω}
    (agree : AgreeOn owner mine first second) : first.lowest rank (first.keysOf owner mine) =
      second.lowest rank (second.keysOf owner mine) := by
  rw [lowest, lowest, agree.keysOf_eq]
  congr 1
  refine image_congr fun key member => ?_
  rw [agree key (mem_keysOf.mp member).2]

end Table

end

end Ironclaw.Lib
