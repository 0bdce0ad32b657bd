import Mathlib.Data.List.Basic

/-!
# Replay of a log and checkpoints

A log is replayed entry by entry, and the first entry that cannot be applied ends it.  The
entries carry increasing positions, so a checkpoint with its position splits the log into
the part it stands for and the part that is still to be replayed.  A checkpoint may differ
from the replayed state in ways that no entry can tell.
-/

namespace Ironclaw.Lib

open List

variable {σ α ε : Type}

def replayAll (apply : σ → α → Except ε σ) (state : σ) : List α → Except ε σ
  | [] => .ok state
  | entry :: rest =>
    match apply state entry with
    | .error error => .error error
    | .ok after => replayAll apply after rest

theorem replayAll_append (apply : σ → α → Except ε σ) (state : σ) (first second : List α) :
    replayAll apply state (first ++ second) = match replayAll apply state first with
      | .error error => .error error
      | .ok after => replayAll apply after second := by
  induction first generalizing state with
  | nil => rfl
  | cons entry _ ih =>
    simp only [cons_append, replayAll]
    cases apply state entry with
    | error error => rfl
    | ok after => exact ih after

/-! ## Replay of related states -/

/-- Both fail with the same error, or both lead to related states. -/
inductive SameOutcome (same : σ → σ → Prop) : Except ε σ → Except ε σ → Prop where
  | ok {first second : σ} : same first second → SameOutcome same (.ok first) (.ok second)
  | error (error : ε) : SameOutcome same (.error error) (.error error)

theorem replayAll_same {same : σ → σ → Prop} {apply : σ → α → Except ε σ}
    (step : ∀ first second entry, same first second →
      SameOutcome same (apply first entry) (apply second entry))
    {first second : σ} (related : same first second) (log : List α) :
    SameOutcome same (replayAll apply first log) (replayAll apply second log) := by
  induction log generalizing first second with
  | nil => exact .ok related
  | cons entry _ ih =>
    have outcome := step first second entry related
    simp only [replayAll]
    generalize apply first entry = one at outcome
    generalize apply second entry = two at outcome
    cases outcome with
    | ok after => exact ih after
    | error error => exact .error error

theorem replayAll_keeps {apply : σ → α → Except ε σ} {property : σ → Prop} {log : List α}
    (step : ∀ entry ∈ log, ∀ before after, property before → apply before entry = .ok after →
      property after)
    {state last : σ} (holds : property state) (replayed : replayAll apply state log = .ok last) :
    property last := by
  induction log generalizing state with
  | nil =>
    cases replayed
    exact holds
  | cons entry _ ih =>
    simp only [replayAll] at replayed
    cases applied : apply state entry with
    | error =>
      rw [applied] at replayed
      cases replayed
    | ok after =>
      rw [applied] at replayed
      exact ih (fun other member => step other (mem_cons_of_mem _ member))
        (step entry mem_cons_self state after holds applied) replayed

/-! ## Positions -/

section

variable (position : α → Nat)

/-- The entries a checkpoint stands for. -/
def upTo (log : List α) (last : Nat) : List α := log.filter fun entry => position entry ≤ last

def behind (log : List α) (last : Nat) : List α := log.filter fun entry => last < position entry

/-- The positions of the log increase. -/
def Increasing (log : List α) : Prop :=
  log.Pairwise fun first second => position first < position second

variable {position} {last : Nat} {log : List α}

theorem upTo_eq_nil (later : ∀ entry ∈ log, last < position entry) : upTo position log last = [] :=
  filter_eq_nil_iff.mpr fun entry member => by simpa using later entry member

theorem upTo_append_behind (increasing : Increasing position log) (last : Nat) :
    upTo position log last ++ behind position log last = log := by
  induction log with
  | nil => rfl
  | cons entry rest ih =>
    obtain ⟨first, ordered⟩ := pairwise_cons.mp increasing
    by_cases inside : position entry ≤ last
    · unfold upTo behind at ih ⊢
      rw [filter_cons_of_pos (by simpa using inside),
        filter_cons_of_neg (by simpa using inside), cons_append, ih ordered]
    · have later : ∀ other ∈ entry :: rest, last < position other :=
        forall_mem_cons.mpr ⟨Nat.lt_of_not_le inside,
          fun other member => Nat.lt_trans (Nat.lt_of_not_le inside) (first other member)⟩
      rw [upTo_eq_nil later, nil_append, behind]
      exact filter_eq_self.mpr fun other member => decide_eq_true (later other member)

theorem upTo_append {log more : List α} (later : ∀ entry ∈ more, last < position entry) :
    upTo position (log ++ more) last = upTo position log last := by
  have none := upTo_eq_nil later
  rw [upTo] at none ⊢
  rw [filter_append, none, append_nil, upTo]

theorem upTo_eq_self (reached : ∀ entry ∈ log, position entry ≤ last) :
    upTo position log last = log :=
  filter_eq_self.mpr fun entry member => decide_eq_true (reached entry member)

theorem Increasing.snoc {entry : α} (increasing : Increasing position log)
    (later : ∀ other ∈ log, position other < position entry) :
    Increasing position (log ++ [entry]) := by
  refine pairwise_append.mpr ⟨increasing, pairwise_singleton _ _, ?_⟩
  intro other member _ same
  rw [mem_singleton.mp same]
  exact later other member

end

/-! ## Checkpoints -/

section

variable (apply : σ → α → Except ε σ) (position : α → Nat)

def advanceTo (checkpoint : σ × Nat) (entry : α) : Except ε (σ × Nat) :=
  match apply checkpoint.1 entry with
  | .error error => .error error
  | .ok after => .ok (after, position entry)

def resume (checkpoint : σ × Nat) (log : List α) : Except ε (σ × Nat) :=
  replayAll (advanceTo apply position) checkpoint log

/-- The states are related and the positions are the same. -/
def SameCheckpoint (same : σ → σ → Prop) (first second : σ × Nat) : Prop :=
  same first.1 second.1 ∧ first.2 = second.2

/-- No entry can tell related states apart. -/
def Respects (same : σ → σ → Prop) : Prop :=
  ∀ first second entry, same first second →
    SameOutcome same (apply first entry) (apply second entry)

/-- The state of the checkpoint is, up to the relation, the one that the entries up to its
position lead to from the start. -/
def Covers (same : σ → σ → Prop) (start : σ) (log : List α) (checkpoint : σ × Nat) : Prop :=
  ∃ state, resume apply position (start, 0) (upTo position log checkpoint.2) =
    .ok (state, checkpoint.2) ∧ same checkpoint.1 state

variable {apply position} {same : σ → σ → Prop}

theorem resume_same (respects : Respects apply same) {first second : σ × Nat}
    (related : SameCheckpoint same first second) (log : List α) :
    SameOutcome (SameCheckpoint same) (resume apply position first log)
      (resume apply position second log) := by
  refine replayAll_same (fun one two entry both => ?_) related log
  have outcome := respects one.1 two.1 entry both.1
  unfold advanceTo
  generalize apply one.1 entry = left at outcome
  generalize apply two.1 entry = right at outcome
  cases outcome with
  | ok after => exact .ok ⟨after, rfl⟩
  | error error => exact .error error

theorem resume_append (checkpoint : σ × Nat) (first second : List α) :
    resume apply position checkpoint (first ++ second) =
      match resume apply position checkpoint first with
      | .error error => .error error
      | .ok after => resume apply position after second := by
  simp only [resume, replayAll_append]
  cases replayAll (advanceTo apply position) checkpoint first <;> rfl

theorem advanceTo_ok {checkpoint after : σ × Nat} {entry : α}
    (applied : advanceTo apply position checkpoint entry = .ok after) :
    apply checkpoint.1 entry = .ok after.1 ∧ after.2 = position entry := by
  unfold advanceTo at applied
  cases done : apply checkpoint.1 entry with
  | error =>
    rw [done] at applied
    cases applied
  | ok =>
    rw [done] at applied
    cases applied
    exact ⟨rfl, rfl⟩

theorem resume_position {checkpoint last : σ × Nat} {log : List α}
    (resumed : resume apply position checkpoint log = .ok last) :
    last.2 = checkpoint.2 ∨ ∃ entry ∈ log, position entry = last.2 := by
  have step : ∀ entry ∈ log, ∀ before after : σ × Nat,
      (before.2 = checkpoint.2 ∨ ∃ entry ∈ log, position entry = before.2) →
      advanceTo apply position before entry = .ok after →
      (after.2 = checkpoint.2 ∨ ∃ entry ∈ log, position entry = after.2) :=
    fun entry member _ _ _ applied => .inr ⟨entry, member, (advanceTo_ok applied).2.symm⟩
  exact replayAll_keeps step (.inl rfl) resumed

theorem le_resume {checkpoint last : σ × Nat} {log : List α}
    (increasing : Increasing position log) (later : ∀ entry ∈ log, checkpoint.2 < position entry)
    (resumed : resume apply position checkpoint log = .ok last) :
    checkpoint.2 ≤ last.2 ∧ ∀ entry ∈ log, position entry ≤ last.2 := by
  induction log generalizing checkpoint with
  | nil =>
    cases resumed
    exact ⟨Nat.le_refl _, nofun⟩
  | cons entry _ ih =>
    obtain ⟨first, ordered⟩ := pairwise_cons.mp increasing
    simp only [resume, replayAll] at resumed
    cases applied : advanceTo apply position checkpoint entry with
    | error =>
      rw [applied] at resumed
      cases resumed
    | ok =>
      rw [applied] at resumed
      have reached := (advanceTo_ok applied).2
      obtain ⟨start, others⟩ := ih ordered (fun other member => reached ▸ first other member)
        resumed
      rw [reached] at start
      refine ⟨?_, fun other member => ?_⟩
      · have before := later entry mem_cons_self
        omega
      · cases mem_cons.mp member with
        | inl here => exact here ▸ start
        | inr inside => exact others other inside

namespace Covers

variable {start : σ} {log : List α} {checkpoint : σ × Nat}

theorem atStart (related : same start start) (positive : ∀ entry ∈ log, 0 < position entry) :
    Covers apply position same start log (start, 0) := by
  refine ⟨start, ?_, related⟩
  rw [upTo_eq_nil positive]
  rfl

variable (covers : Covers apply position same start log checkpoint)
include covers

theorem of_same {state : σ}
    (related : ∀ replayed, same checkpoint.1 replayed → same state replayed) :
    Covers apply position same start log (state, checkpoint.2) := by
  obtain ⟨replayed, reached, first⟩ := covers
  exact ⟨replayed, reached, related replayed first⟩

theorem snoc {entry : α} (later : ∀ other ∈ log, position other < position entry)
    (positive : 0 < position entry) :
    Covers apply position same start (log ++ [entry]) checkpoint := by
  obtain ⟨state, reached, related⟩ := covers
  have before : checkpoint.2 < position entry := by
    cases resume_position reached with
    | inl initial =>
      rw [show checkpoint.2 = 0 from initial]
      exact positive
    | inr known =>
      obtain ⟨other, member, here⟩ := known
      have inside : other ∈ log := (mem_filter.mp member).1
      have order := later other inside
      omega
  refine ⟨state, ?_, related⟩
  rw [upTo_append fun other member => (mem_singleton.mp member) ▸ before]
  exact reached

/-- Replay from a checkpoint has the outcome of replaying the whole log. -/
theorem resumes (respects : Respects apply same) (increasing : Increasing position log) :
    SameOutcome (SameCheckpoint same)
      (resume apply position checkpoint (behind position log checkpoint.2))
      (resume apply position (start, 0) log) := by
  obtain ⟨state, reached, related⟩ := covers
  have whole : resume apply position (start, 0) log =
      resume apply position (state, checkpoint.2) (behind position log checkpoint.2) := by
    conv_lhs => rw [← upTo_append_behind increasing checkpoint.2]
    rw [resume_append, reached]
  have both : SameCheckpoint same checkpoint (state, checkpoint.2) := ⟨related, rfl⟩
  rw [whole]
  exact resume_same respects both _

/-- What replay from a checkpoint leads to covers the whole log. -/
theorem next (respects : Respects apply same) (increasing : Increasing position log)
    (positive : ∀ entry ∈ log, 0 < position entry) {last : σ × Nat}
    (resumed : resume apply position checkpoint (behind position log checkpoint.2) = .ok last) :
    Covers apply position same start log last := by
  have outcome := covers.resumes respects increasing
  rw [resumed] at outcome
  generalize replayed : resume apply position (start, 0) log = whole at outcome
  cases outcome with
  | @ok _ other related =>
    obtain ⟨sameState, samePosition⟩ := related
    have reached := (le_resume increasing positive replayed).2
    rw [← samePosition] at reached
    refine ⟨other.1, ?_, sameState⟩
    rw [upTo_eq_self reached, replayed, samePosition]

end Covers

end

end Ironclaw.Lib
