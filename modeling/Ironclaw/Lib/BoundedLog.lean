import Mathlib.Data.List.Basic
import Mathlib.Order.Basic

/-!
# Bounded logs

A log of entries with increasing stamps that drops its oldest entries when it is full.  The
floor is the highest stamp that was dropped: a reader that is behind it has missed entries,
and a reader that is not has missed none.
-/

namespace Ironclaw.Lib

open List
structure BoundedLog (α : Type) where
  entries : List α
  floor : Nat
  capacity : Nat

namespace BoundedLog

variable {α : Type} (stamp : α → Nat)

/-- The floor after the first `count` entries are dropped. -/
def raisedFloor (floor : Nat) (entries : List α) (count : Nat) : Nat :=
  if count = 0 then floor
  else match entries[count - 1]? with
    | some lastDropped => max floor (stamp lastDropped)
    | none => floor

/-- Append an entry and drop the oldest ones beyond the capacity. -/
def push (log : BoundedLog α) (entry : α) : BoundedLog α :=
  let entries := log.entries ++ [entry]
  let excess := entries.length - log.capacity
  { entries := entries.drop excess
    floor := raisedFloor stamp log.floor entries excess
    capacity := log.capacity }

def pushAll (log : BoundedLog α) (entries : List α) : BoundedLog α := entries.foldl (push stamp) log

variable {entry : α} (log : BoundedLog α)

@[simp]
theorem pushAll_nil : log.pushAll stamp [] = log := rfl

theorem pushAll_entries (entries : List α)
    (room : log.entries.length + entries.length ≤ log.capacity) :
    (log.pushAll stamp entries).entries = log.entries ++ entries := by
  induction entries generalizing log with
  | nil => rw [pushAll_nil, append_nil]
  | cons entry _ ih =>
    rw [length_cons] at room
    have kept : (log.push stamp entry).entries = log.entries ++ [entry] := by
      have none_over : (log.entries ++ [entry]).length - log.capacity = 0 := by
        rw [length_append, length_singleton]
        omega
      simp only [push, none_over, drop_zero]
    have later := ih (log.push stamp entry) (by
      rw [kept, length_append, length_singleton]
      change _ ≤ log.capacity
      omega)
    rw [kept, append_assoc, singleton_append] at later
    exact later

/-! ## What the log covers -/

/-- The stamps grow, are above the floor and at most the last stamp given out, and every
entry that was issued is still there or at most at the floor. -/
structure Covers (log : BoundedLog α) (issued : List α) (last : Nat) : Prop where
  ordered : log.entries.Pairwise fun left right => stamp left < stamp right
  above : ∀ entry ∈ log.entries, log.floor < stamp entry
  bounded : ∀ entry ∈ log.entries, stamp entry ≤ last
  kept : ∀ entry ∈ issued, entry ∈ log.entries ∨ stamp entry ≤ log.floor
  /-- The last stamp can be read off the log. -/
  reaches : log.floor = last ∨ ∃ entry ∈ log.entries, stamp entry = last
  floor_le : log.floor ≤ last

variable {stamp}

theorem Covers.empty (capacity : Nat) : Covers stamp (⟨[], 0, capacity⟩ : BoundedLog α) [] 0 where
  ordered := .nil
  above _ listed := by cases listed
  bounded _ listed := by cases listed
  kept _ listed := by cases listed
  reaches := .inl rfl
  floor_le := Nat.le_refl 0

section

variable {floor count : Nat} {entries : List α}

theorem le_raisedFloor : floor ≤ raisedFloor stamp floor entries count := by
  unfold raisedFloor
  split
  · exact Nat.le_refl _
  · split
    · exact Nat.le_max_left _ _
    · exact Nat.le_refl _

theorem raisedFloor_le {bound : Nat} (low : floor ≤ bound)
    (stamps : ∀ entry ∈ entries, stamp entry ≤ bound) :
    raisedFloor stamp floor entries count ≤ bound := by
  unfold raisedFloor
  split
  · exact low
  split
  next dropped found => exact Nat.max_le.mpr ⟨low, stamps dropped (mem_of_getElem? found)⟩
  · exact low

theorem le_raisedFloor_of_dropped (ordered : entries.Pairwise fun left right =>
      stamp left < stamp right) (within : count ≤ entries.length) {entry : α}
    (dropped : entry ∈ entries.take count) :
    stamp entry ≤ raisedFloor stamp floor entries count := by
  obtain ⟨index, _, rfl⟩ := mem_take_iff_getElem.mp dropped
  have last : count - 1 < entries.length := by omega
  have positive : count ≠ 0 := by omega
  unfold raisedFloor
  rw [if_neg positive, List.getElem?_eq_getElem last]
  refine Nat.le_trans ?_ (Nat.le_max_right _ _)
  rcases Nat.lt_or_ge index (count - 1) with earlier | _
  · exact Nat.le_of_lt (pairwise_iff_getElem.mp ordered _ _ _ _ earlier)
  · have equal : index = count - 1 := by omega
    subst equal
    exact Nat.le_refl _

theorem raisedFloor_lt_of_kept (ordered : entries.Pairwise fun left right =>
      stamp left < stamp right) {entry : α} (stays : entry ∈ entries.drop count)
    (above : floor < stamp entry) : raisedFloor stamp floor entries count < stamp entry := by
  obtain ⟨_, _, rfl⟩ := mem_drop_iff_getElem.mp stays
  unfold raisedFloor
  split
  · exact above
  split
  next _ _ found =>
    obtain ⟨_, rfl⟩ := List.getElem?_eq_some_iff.mp found
    refine Nat.max_lt.mpr ⟨above, ?_⟩
    exact pairwise_iff_getElem.mp ordered _ _ _ _ (by omega)
  · exact above

end

variable {log : BoundedLog α} {issued : List α} {last : Nat}

theorem Covers.push (covers : Covers stamp log issued last) (next : stamp entry = last + 1) :
    Covers stamp (log.push stamp entry) (issued ++ [entry]) (last + 1) := by
  have ordered : (log.entries ++ [entry]).Pairwise fun left right =>
      stamp left < stamp right := by
    refine pairwise_append.mpr ⟨covers.ordered, pairwise_singleton _ _, ?_⟩
    intro earlier listed new same
    rw [mem_singleton.mp same, next]
    exact Nat.lt_succ_of_le (covers.bounded earlier listed)
  have above : ∀ candidate ∈ log.entries ++ [entry], log.floor < stamp candidate := by
    intro candidate listed
    rcases mem_append.mp listed with earlier | new
    · exact covers.above candidate earlier
    · rw [mem_singleton.mp new, next]
      exact Nat.lt_succ_of_le covers.floor_le
  have bounded : ∀ candidate ∈ log.entries ++ [entry], stamp candidate ≤ last + 1 := by
    intro candidate listed
    rcases mem_append.mp listed with earlier | new
    · exact Nat.le_succ_of_le (covers.bounded candidate earlier)
    · exact Nat.le_of_eq ((congrArg stamp (mem_singleton.mp new)).trans next)
  have split : ∀ candidate ∈ log.entries ++ [entry], candidate ∈ (log.push stamp entry).entries ∨
        stamp candidate ≤ (log.push stamp entry).floor := by
    intro candidate listed
    rw [← take_append_drop ((log.entries ++ [entry]).length - log.capacity)
      (log.entries ++ [entry])] at listed
    rcases mem_append.mp listed with dropped | stays
    · exact .inr (le_raisedFloor_of_dropped ordered (Nat.sub_le _ _) dropped)
    · exact .inl stays
  have low : (log.push stamp entry).floor ≤ last + 1 :=
    raisedFloor_le (Nat.le_succ_of_le covers.floor_le) bounded
  refine ⟨ordered.sublist (drop_sublist _ _), ?_, ?_, ?_, ?_, low⟩
  · intro candidate stays
    exact raisedFloor_lt_of_kept ordered stays (above candidate (mem_of_mem_drop stays))
  · intro candidate stays
    exact bounded candidate (mem_of_mem_drop stays)
  · intro candidate listed
    rcases mem_append.mp listed with earlier | new
    · rcases covers.kept candidate earlier with present | gone
      · exact split candidate (mem_append_left _ present)
      · exact .inr (Nat.le_trans gone le_raisedFloor)
    · exact split candidate (mem_append_right _ new)
  · rcases split entry (mem_append_right _ (mem_singleton_self entry)) with
      present | gone
    · exact .inr ⟨entry, present, next⟩
    · rw [next] at gone
      exact .inl (Nat.le_antisymm low gone)

/-- The entries carry the stamps after `last`, one by one. -/
def Numbered (stamp : α → Nat) (last : Nat) (entries : List α) : Prop :=
  ∀ index (inside : index < entries.length), stamp entries[index] = last + index + 1

theorem Numbered.of_cons {rest : List α} (numbered : Numbered stamp last (entry :: rest)) :
    stamp entry = last + 1 ∧ Numbered stamp (last + 1) rest := by
  refine ⟨numbered 0 (Nat.succ_pos _), fun index inside => ?_⟩
  have shifted := numbered (index + 1) (Nat.succ_lt_succ inside)
  rw [getElem_cons_succ] at shifted
  omega

theorem Covers.pushAll (covers : Covers stamp log issued last) {entries : List α}
    (numbered : Numbered stamp last entries) :
    Covers stamp (log.pushAll stamp entries) (issued ++ entries) (last + entries.length) := by
  induction entries generalizing log issued last with
  | nil => simpa using covers
  | cons _ rest ih =>
    obtain ⟨next, later⟩ := numbered.of_cons
    have covered := ih (covers.push next) later
    rw [append_assoc, singleton_append] at covered
    rw [length_cons, Nat.add_comm rest.length 1, ← Nat.add_assoc]
    exact covered

end BoundedLog

end Ironclaw.Lib
