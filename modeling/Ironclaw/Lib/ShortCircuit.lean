import Mathlib.Data.List.Basic
import Mathlib.Order.Lattice

/-!
# Folds that stop listening

Two things a composition of verdicts does: it keeps the strongest verdict it has heard,
and after the first verdict that closes the discussion it hears only those who are
exempt.  Who is heard in a sorted list depends on the order alone.
-/

namespace Ironclaw.Lib

open List

/-! ## The strongest verdict -/

section

variable {δ ρ : Type} [LinearOrder ρ] (rank : δ → ρ)

/-- The first of two verdicts, unless the second is stronger. -/
def keepStronger (current next : δ) : δ := if rank current < rank next then next else current

/-- The strongest verdict heard, the first of them if there are several. -/
def strongest (start : δ) (verdicts : List δ) : δ := verdicts.foldl (keepStronger rank) start

theorem rank_le_keepStronger (current next : δ) :
    rank current ≤ rank (keepStronger rank current next) ∧
      rank next ≤ rank (keepStronger rank current next) := by
  unfold keepStronger
  split
  next stronger => exact ⟨le_of_lt stronger, le_refl _⟩
  next weaker => exact ⟨le_refl _, not_lt.mp weaker⟩

variable {start verdict : δ} {verdicts : List δ}

theorem rank_le_strongest (heard : verdict ∈ start :: verdicts) :
    rank verdict ≤ rank (strongest rank start verdicts) := by
  induction verdicts generalizing start verdict with
  | nil =>
    rw [mem_singleton] at heard
    rw [heard]
    exact le_refl _
  | cons next rest ih =>
    obtain ⟨overStart, overNext⟩ := rank_le_keepStronger rank start next
    have composed : rank (keepStronger rank start next) ≤
        rank (strongest rank start (next :: rest)) := ih mem_cons_self
    rcases mem_cons.mp heard with rfl | later
    · exact le_trans overStart composed
    · rcases mem_cons.mp later with rfl | inRest
      · exact le_trans overNext composed
      · exact ih (mem_cons_of_mem _ inRest)

theorem strongest_mem (start : δ) (verdicts : List δ) :
    strongest rank start verdicts ∈ start :: verdicts := by
  induction verdicts generalizing start with
  | nil => exact mem_cons_self
  | cons next _ ih =>
    rcases mem_cons.mp (ih (keepStronger rank start next)) with same | inRest
    · have either : keepStronger rank start next ∈ [start, next] := by
        unfold keepStronger
        split <;> simp
      rw [← same] at either
      rcases mem_cons.mp either with atStart | atNext
      · exact mem_cons.mpr (.inl atStart)
      · exact mem_cons_of_mem _ (mem_cons.mpr (.inl (mem_singleton.mp atNext)))
    · exact mem_cons_of_mem _ (mem_cons_of_mem _ inRest)

end

/-! ## Who is heard -/

section

variable {α : Type} (closes exempt : α → Bool)

/-- The speakers who are heard: once somebody has closed the discussion only the exempt. -/
def heard : Bool → List α → List α
  | _, [] => []
  | closed, speaker :: rest =>
    if closed && !exempt speaker then heard closed rest
    else speaker :: heard (closed || closes speaker) rest

variable {closes exempt} {before : α → α → Prop} {speakers : List α} {closed : Bool}

/-- In an ordered list a speaker is heard who is exempt, or before whom nobody closes the
discussion. -/
theorem mem_heard (ordered : speakers.Pairwise before)
    (asymm : ∀ first second, before first second → ¬before second first) (speaker : α) :
    speaker ∈ heard closes exempt closed speakers ↔
      speaker ∈ speakers ∧ (exempt speaker = true ∨ closed = false ∧
        ∀ earlier ∈ speakers, before earlier speaker → closes earlier = false) := by
  induction speakers generalizing closed with
  | nil => simp [heard]
  | cons first rest ih =>
    rw [pairwise_cons] at ordered
    obtain ⟨leads, orderedRest⟩ := ordered
    have irrefl : ¬before first first := fun self => asymm first first self self
    have notFirst : ∀ earlier ∈ first :: rest, ¬before earlier first := by
      intro earlier listed precedes
      rcases mem_cons.mp listed with rfl | inRest
      · exact irrefl precedes
      · exact asymm _ _ (leads earlier inRest) precedes
    have fresh : first ∉ rest := fun inRest => irrefl (leads first inRest)
    by_cases same : speaker = first
    · subst same
      unfold heard
      split
      next silenced =>
        simp only [Bool.and_eq_true, Bool.not_eq_true'] at silenced
        simp [ih orderedRest, fresh, silenced]
      next speaks =>
        simp only [mem_cons_self, true_and, true_iff]
        cases isExempt : exempt speaker with
        | true => exact .inl rfl
        | false =>
          refine .inr ⟨by simpa [isExempt] using speaks, fun earlier listed precedes => ?_⟩
          exact absurd precedes (notFirst earlier listed)
    · unfold heard
      split
      next silenced =>
        simp only [Bool.and_eq_true, Bool.not_eq_true'] at silenced
        simp [ih orderedRest, same, silenced.1]
      · simp only [mem_cons, same, false_or, ih orderedRest, Bool.or_eq_false_iff, forall_eq_or_imp]
        constructor
        · rintro ⟨inRest, isExempt | ⟨⟨opened, quiet⟩, rest⟩⟩
          · exact ⟨inRest, .inl isExempt⟩
          · exact ⟨inRest, .inr ⟨opened, fun _ => quiet, rest⟩⟩
        · rintro ⟨inRest, isExempt | ⟨opened, quiet, rest⟩⟩
          · exact ⟨inRest, .inl isExempt⟩
          · exact ⟨inRest, .inr ⟨⟨opened, quiet (leads speaker inRest)⟩, rest⟩⟩

end

end Ironclaw.Lib
