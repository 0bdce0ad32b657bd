import Mathlib.Algebra.Order.Group.Int
import Mathlib.Tactic.Set

/-!
# Windows that tile a line

Every point lies in a half-open window, and all the points of a window have the same
window.  Two windows are then equal or apart.
-/

namespace Ironclaw.Lib

open Option

/-- The windows `bounds` gives to the points of a line tile it. -/
structure Tiles {τ : Type} [LinearOrder τ] (bounds : τ → τ × τ) : Prop where
  start_le : ∀ point, (bounds point).1 ≤ point
  lt_end : ∀ point, point < (bounds point).2
  same : ∀ {point other}, (bounds point).1 ≤ other → other < (bounds point).2 →
    bounds other = bounds point

namespace Tiles

variable {τ : Type} [LinearOrder τ] {bounds : τ → τ × τ}

theorem end_le_start (tiles : Tiles bounds) {point later : τ}
    (beyond : (bounds point).2 ≤ later) : (bounds point).2 ≤ (bounds later).1 := by
  by_contra early
  rw [not_le] at early
  have between := tiles.lt_end point
  -- The later of the two starts would lie in both windows.
  have inFirst : bounds (max (bounds later).1 point) = bounds point :=
    tiles.same ((tiles.start_le point).trans (le_max_right _ _)) (max_lt early between)
  have inSecond : bounds (max (bounds later).1 point) = bounds later :=
    tiles.same (le_max_left _ _) ((max_le (tiles.start_le later)
      (between.le.trans beyond)).trans_lt (tiles.lt_end later))
  rw [← inFirst, inSecond] at beyond
  exact absurd (tiles.lt_end later) (not_lt.mpr beyond)

theorem start_start (tiles : Tiles bounds) (point : τ) : bounds (bounds point).1 = bounds point :=
  tiles.same le_rfl ((tiles.start_le point).trans_lt (tiles.lt_end point))

theorem start_end (tiles : Tiles bounds) (point : τ) :
    (bounds (bounds point).2).1 = (bounds point).2 :=
  le_antisymm (tiles.start_le _) (tiles.end_le_start le_rfl)

end Tiles

/-! ## Windows carried to another line -/

section

variable (bounds : Int → Int × Int) (read : Int → Int) (mark : Int → Option Int) (width : Int)

/-- The window around what a point reads as, from the mark of its start to that of its end.
For a missing mark the point stands in, or a point behind it. -/
def carried (point : Int) : Int × Int :=
  ((mark (bounds (read point)).1).getD point, (mark (bounds (read point)).2).getD (point + width))

/-- The mark of the label is the first point that reads as the label or a later one. -/
def MarkedAt (label : Int) : Prop :=
  ∃ point, mark label = some point ∧ ∀ other, point ≤ other ↔ label ≤ read other

variable {bounds read mark width}

theorem tiles_carried (tiles : Tiles bounds) (marked : ∀ point,
    MarkedAt read mark (bounds (read point)).1 ∧ MarkedAt read mark (bounds (read point)).2) :
    Tiles (carried bounds read mark width) := by
  have window : ∀ point, ∃ first last, (∀ other, bounds (read other) = bounds (read point) →
      carried bounds read mark width other = (first, last)) ∧
      ∀ other, (first ≤ other ↔ (bounds (read point)).1 ≤ read other) ∧
        (other < last ↔ read other < (bounds (read point)).2) := by
    intro point
    obtain ⟨⟨first, starts, fromFirst⟩, last, ends, fromLast⟩ := marked point
    refine ⟨first, last, fun other same => ?_, fun other => ⟨fromFirst other, ?_⟩⟩
    · rw [carried, same, starts, ends]
      rfl
    · rw [← not_le, fromLast, not_le]
  refine ⟨fun point => ?_, fun point => ?_, fun {point other} starts ends => ?_⟩ <;>
    obtain ⟨_, _, same, within⟩ := window point
  · rw [same point rfl]
    exact (within point).1.mpr (tiles.start_le _)
  · rw [same point rfl]
    exact (within point).2.mpr (tiles.lt_end _)
  · rw [same point rfl] at starts ends ⊢
    exact same other (tiles.same ((within other).1.mp starts) ((within other).2.mp ends))

/-- The window in front of one that starts at a point ends there. -/
theorem Tiles.end_before (tiles : Tiles bounds) {point : Int} (starts : (bounds point).1 = point) :
    (bounds (point - 1)).2 = point := by
  have begun := tiles.start_le (point - 1)
  have ends := tiles.lt_end (point - 1)
  by_contra different
  have same : bounds point = bounds (point - 1) := tiles.same (by omega) (by omega)
  rw [← same] at begun
  omega

/-- Where the mark of a label reads as the label, the carried windows tile the line exactly
if the starts and the ends of the windows are marked. -/
theorem tiles_carried_iff (tiles : Tiles bounds)
    (shown : ∀ label point, mark label = some point → read point = label) (wide : 1 < width) :
    Tiles (carried bounds read mark width) ↔ ∀ point,
      MarkedAt read mark (bounds (read point)).1 ∧ MarkedAt read mark (bounds (read point)).2 := by
  refine ⟨fun line => ?_, tiles_carried tiles⟩
  set window := carried bounds read mark width with carries
  have begins : ∀ point, mark (bounds (read point)).1 = some (window point).1 := by
    intro point
    cases starts : mark (bounds (read point)).1 with
    | some first => simp [carries, carried, starts]
    | none =>
      -- The window in front ends here, so that its end is marked, and it starts this one.
      have ended : (window (point - 1)).2 = point :=
        line.end_before (by simp [carries, carried, starts])
      rw [carries, carried] at ended
      cases last : mark (bounds (read (point - 1))).2 with
      | none =>
        rw [last, getD_none] at ended
        omega
      | some =>
        rw [last, getD_some] at ended
        dsimp only at ended
        rw [ended] at last
        rw [shown _ _ last, tiles.start_end, last] at starts
        cases starts
  have agree : ∀ {point other}, window other = window point →
      bounds (read other) = bounds (read point) := by
    intro point other same
    have both := begins other
    rw [same] at both
    rw [← tiles.start_start, ← shown _ _ both, shown _ _ (begins point), tiles.start_start]
  have ends : ∀ point, mark (bounds (read point)).2 = some (window point).2 := by
    intro point
    cases last : mark (bounds (read point)).2 with
    | some => simp [carries, carried, last]
    | none =>
      have late : (window point).2 = point + width := by simp [carries, carried, last]
      have begun := line.start_le point
      have same : window (point + 1) = window point := line.same (by omega) (by omega)
      have later := congrArg Prod.snd same
      rw [late, carries, carried, agree same, last, getD_none] at later
      omega
  have rising : Monotone fun point => (bounds (read point)).1 := by
    refine monotone_int_of_le_succ fun point => ?_
    have begun := line.start_le point
    have ahead := line.lt_end point
    by_cases inside : point + 1 < (window point).2
    · rw [agree (line.same (by omega) inside)]
    · have next : (window point).2 = point + 1 := by omega
      rw [← next, shown _ _ (ends point), tiles.start_end]
      exact (tiles.start_le _).trans (tiles.lt_end _).le
  have starts : ∀ point, MarkedAt read mark (bounds (read point)).1 := by
    intro point
    have first : (bounds (read (window point).1)).1 = (bounds (read point)).1 := by
      rw [shown _ _ (begins point), tiles.start_start]
    refine ⟨_, begins point, fun other => ⟨fun behind => ?_, fun reached => ?_⟩⟩
    · exact (first.ge.trans (rising behind)).trans (tiles.start_le _)
    · by_contra ahead
      have earlier := (rising (not_le.mp ahead).le).trans first.le
      have within : read other < (bounds (read point)).2 := by
        by_contra beyond
        have later := (tiles.end_le_start (not_lt.mp beyond)).trans earlier
        exact absurd ((tiles.start_le _).trans_lt (tiles.lt_end (read point))) later.not_gt
      have same := begins other
      rw [tiles.same reached within, begins point, some.injEq] at same
      exact ahead (same ▸ line.start_le other)
  intro point
  have last := starts (window point).2
  rw [shown _ _ (ends point), tiles.start_end] at last
  exact ⟨starts point, last⟩

end

end Ironclaw.Lib
