import Mathlib.Data.List.Infix
import Mathlib.Data.List.MinMax

/-!
# Prefixes and separated segments

A property of a list that only asks which of finitely many lists are prefixes of it is
settled on finitely many lists.

A list of segments is written as one sequence with a separator in front of every
segment.  Where no segment holds the separator, the segments can be read back, and one
written sequence continues another at a separator exactly if its segments do.
-/

namespace Ironclaw.Lib

open List

variable {α : Type}

/-! ## Prefix tests -/

section

variable [DecidableEq α]

/-- What the lists that start with `front` have behind it. -/
def tailsBelow (front : List α) (lists : List (List α)) : List (List α) :=
  lists.filterMap fun list => if front <+: list then some (list.drop front.length) else none

theorem mem_tailsBelow {front tail : List α} {lists : List (List α)} :
    tail ∈ tailsBelow front lists ↔ front ++ tail ∈ lists := by
  rw [tailsBelow, mem_filterMap]
  constructor
  · rintro ⟨_, listed, found⟩
    split at found
    next starts =>
      obtain ⟨_, rfl⟩ := starts
      rw [drop_left] at found
      cases found
      exact listed
    · cases found
  · intro listed
    exact ⟨front ++ tail, listed, by rw [if_pos (prefix_append _ _), drop_left]⟩

/-- Behind a common front the tests that matter are those of the tails below it. -/
theorem prefix_append_congr {front rest other list : List α} {lists : List (List α)}
    (agree : ∀ tail ∈ tailsBelow front lists, tail <+: rest ↔ tail <+: other)
    (listed : list ∈ lists) : list <+: front ++ rest ↔ list <+: front ++ other := by
  by_cases starts : front <+: list
  · obtain ⟨tail, rfl⟩ := starts
    rw [prefix_append_right_inj, prefix_append_right_inj]
    exact agree tail (mem_tailsBelow.mpr listed)
  · have short : ∀ behind, list <+: front ++ behind → list <+: front := fun behind matching =>
      (List.prefix_or_prefix_of_prefix matching (prefix_append front behind)).resolve_right
        starts
    exact ⟨fun matching => (short _ matching).trans (prefix_append _ _),
      fun matching => (short _ matching).trans (prefix_append _ _)⟩

end

/-- The longest of the lists that are a prefix passes the same tests. -/
theorem exists_representative [DecidableEq α] (lists : List (List α)) (rest : List α) :
    ∃ point ∈ [] :: lists, point <+: rest ∧ ∀ list ∈ lists, list <+: rest ↔ list <+: point := by
  cases found : (lists.filter (· <+: rest)).argmax length with
  | none =>
    refine ⟨[], mem_cons_self, nil_prefix, fun list listed => ?_⟩
    have missed := filter_eq_nil_iff.mp (argmax_eq_none.mp found) list listed
    rw [decide_eq_true_eq] at missed
    exact ⟨fun matching => absurd matching missed, fun matching => matching.trans nil_prefix⟩
  | some point =>
    obtain ⟨inLists, starts⟩ := mem_filter.mp (argmax_mem found)
    rw [decide_eq_true_eq] at starts
    refine ⟨point, mem_cons_of_mem _ inLists, starts, fun list listed => ?_⟩
    refine ⟨fun matching => ?_, fun matching => matching.trans starts⟩
    have member : list ∈ lists.filter (· <+: rest) :=
      mem_filter.mpr ⟨listed, decide_eq_true matching⟩
    exact prefix_of_prefix_length_le matching starts
      (le_of_mem_argmax member found)

/-! ## Segments -/

/-- The segments in order, each behind a separator. -/
def joinSegments (separator : α) (segments : List (List α)) : List α :=
  segments.flatMap (separator :: ·)

/-- The separator stands between segments only. -/
def SeparatorFree (separator : α) (segments : List (List α)) : Prop :=
  ∀ segment ∈ segments, separator ∉ segment

variable {separator : α} {segments first second : List (List α)}

@[simp]
theorem joinSegments_nil : joinSegments separator [] = [] := rfl

@[simp]
theorem joinSegments_cons (segment : List α) : joinSegments separator (segment :: segments) =
      separator :: (segment ++ joinSegments separator segments) := rfl

@[simp]
theorem joinSegments_append : joinSegments separator (first ++ second) =
      joinSegments separator first ++ joinSegments separator second :=
  flatMap_append

theorem joinSegments_eq_nil : joinSegments separator segments = [] ↔ segments = [] := by
  cases segments <;> simp

variable [DecidableEq α]

/-- What stands between two separators is made of the letters of the sequence, and holds
no separator. -/
theorem mem_of_mem_splitOn {text : List α} : ∀ part ∈ text.splitOn separator,
    ∀ letter ∈ part, letter ∈ text ∧ letter ≠ separator := by
  induction text with
  | nil => simp
  | cons head rest ih =>
    have later : ∀ part ∈ rest.splitOn separator, ∀ letter ∈ part,
        letter ∈ head :: rest ∧ letter ≠ separator := fun part listed letter held =>
      (ih part listed letter held).imp_left (mem_cons_of_mem head)
    rw [splitOn_cons_eq_if_modifyHead]
    split
    · exact forall_mem_cons.mpr ⟨nofun, later⟩
    next different =>
      cases split : rest.splitOn separator with
      | nil => exact absurd split (splitOn_ne_nil _ _)
      | cons =>
        rw [split] at later
        have own : head ∈ head :: rest ∧ head ≠ separator :=
          ⟨mem_cons_self, fun same => different (beq_iff_eq.mpr same)⟩
        rw [forall_mem_cons] at later
        exact forall_mem_cons.mpr ⟨forall_mem_cons.mpr ⟨own, later.1⟩, later.2⟩

/-- Splitting at the separator gives the segments back, behind the empty sequence in
front of the first separator. -/
theorem splitOn_joinSegments (free : SeparatorFree separator segments) :
    (joinSegments separator segments).splitOn separator = [] :: segments := by
  induction segments using reverseRecOn with
  | nil => rfl
  | append_singleton segments last ih =>
    have whole : last.splitOn separator = [last] := splitOn_eq_singleton (free last (by simp))
    have earlier := ih fun segment listed => free segment (mem_append_left _ listed)
    have shape : joinSegments separator (segments ++ [last]) =
        joinSegments separator segments ++ separator :: last := by simp
    rw [shape, splitOn_append_cons_self, earlier, whole]
    rfl

theorem nil_mem_of_doubled {before after : List α} (free : SeparatorFree separator segments)
    (doubled : joinSegments separator segments = before ++ separator :: separator :: after) :
    [] ∈ segments := by
  have split := congrArg (splitOn separator) doubled
  rw [splitOn_joinSegments free, splitOn_append_cons_self] at split
  have empty : (separator :: after).splitOn separator = [] :: after.splitOn separator :=
    splitOn_append_cons_self [] after
  rw [empty] at split
  cases front : before.splitOn separator with
  | nil => exact absurd front (splitOn_ne_nil _ _)
  | cons =>
    rw [front, cons_append] at split
    rw [(cons.inj split).2]
    simp

theorem joinSegments_injective (freeFirst : SeparatorFree separator first)
    (freeSecond : SeparatorFree separator second)
    (same : joinSegments separator first = joinSegments separator second) : first = second := by
  have split := congrArg (splitOn separator) same
  rw [splitOn_joinSegments freeFirst, splitOn_joinSegments freeSecond] at split
  exact (cons.inj split).2

/-- A written sequence equals another or continues it at a separator exactly if its
segments continue the other's. -/
theorem joinSegments_continues (freeFirst : SeparatorFree separator first)
    (freeSecond : SeparatorFree separator second) :
    (joinSegments separator second = joinSegments separator first ∨
        joinSegments separator first ++ [separator] <+: joinSegments separator second) ↔
      first <+: second := by
  constructor
  · rintro (same | ⟨rest, continued⟩)
    · rw [joinSegments_injective freeSecond freeFirst same]
    · have split := congrArg (splitOn separator) continued
      rw [splitOn_joinSegments freeSecond, append_assoc, singleton_append,
        splitOn_append_cons_self, splitOn_joinSegments freeFirst, cons_append] at split
      exact ⟨_, (cons.inj split).2⟩
  · rintro ⟨rest, rfl⟩
    cases rest with
    | nil => exact .inl (by simp)
    | cons segment rest =>
      refine .inr ⟨segment ++ joinSegments separator rest, ?_⟩
      simp

end Ironclaw.Lib
