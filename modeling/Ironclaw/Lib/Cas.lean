import Mathlib.Data.List.Induction
import Ironclaw.Lib.System

/-!
# Compare-and-set on one versioned cell

Any number of callers change one cell by reading it with its version, computing the
new value, and writing it back if the version is still the one they read; a lost race
is retried a bounded number of times.  Single reads and writes interleave freely.  The
calls that succeed are serializable: run one after another in the order of their writes
they lead to the value of the cell.
-/

namespace Ironclaw.Lib

open Function

/-- A value with the version of its last write. -/
structure Cell (α : Type) where
  value : α
  version : Nat

/-- Where a caller is in its read-modify-write loop. -/
inductive Caller (α op : Type) where
  | idle
  | reading (call : op) (attempts : Nat)
  | writing (call : op) (attempts : Nat) (read : Cell α) (next : α)

/-- The cell, the callers, and the calls that have succeeded so far. -/
structure CasState (ι α op : Type) where
  cell : Cell α
  callers : ι → Caller α op
  log : List op

inductive CasLabel (ι op input : Type) where
  | call (caller : ι) (call : op)
  | read (caller : ι) (seen : input)
  | write (caller : ι)
  | fail (caller : ι)

section

variable {α op ε input : Type} (mutate : input → op → α → Except ε α)

/-- The calls of a log, run one after another, lead from one value to another. -/
inductive Serial : α → List op → α → Prop where
  | nil (start : α) : Serial start [] start
  | snoc {start middle last : α} {log : List op} {call : op} {seen : input} :
      Serial start log middle → mutate seen call middle = .ok last →
      Serial start (log ++ [call]) last

variable {mutate}

namespace Serial

/-- The call in the middle of a log ran on the value its predecessors left. -/
theorem split {start last : α} {before after : List op} {call : op}
    (serial : Serial mutate start (before ++ call :: after) last) :
    ∃ middle next seen, Serial mutate start before middle ∧
      mutate seen call middle = .ok next ∧ Serial mutate next after last := by
  induction after using List.reverseRecOn generalizing last with
  | nil =>
    generalize shape : before ++ [call] = log at serial
    cases serial with
    | nil => simp at shape
    | @snoc middle _ _ _ seen earlier ran =>
      obtain ⟨rfl, same⟩ := List.append_inj' shape rfl
      cases same
      exact ⟨middle, last, seen, earlier, ran, .nil last⟩
  | append_singleton after final ih =>
    rw [← List.cons_append, ← List.append_assoc] at serial
    generalize shape : before ++ call :: after ++ [final] = log at serial
    cases serial with
    | nil => simp at shape
    | snoc earlier ran =>
      obtain ⟨rfl, same⟩ := List.append_inj' shape rfl
      cases same
      obtain ⟨middle, next, seen, first, step, rest⟩ := ih earlier
      exact ⟨middle, next, seen, first, step, rest.snoc ran⟩

end Serial

end

section

variable {ι α op ε input : Type} [DecidableEq ι] (mutate : input → op → α → Except ε α)
  (attempts : Nat)

namespace CasState

variable (state : CasState ι α op) (caller : ι)

def put (next : Caller α op) : CasState ι α op :=
  { state with callers := update state.callers caller next }

/-- A caller that has nothing under way starts a call. -/
def call (wanted : op) : CasState ι α op :=
  match state.callers caller with
  | .idle => state.put caller (if attempts = 0 then .idle else .reading wanted attempts)
  | _ => state

/-- The caller reads the cell and computes what to write; a refusal ends the call. -/
def read (seen : input) : CasState ι α op :=
  match state.callers caller with
  | .reading wanted left =>
    state.put caller (match mutate seen wanted state.cell.value with
      | .error _ => .idle
      | .ok next => .writing wanted left state.cell next)
  | _ => state

/-- The caller writes if the version is still the one it read, or else tries again. -/
def write : CasState ι α op :=
  match state.callers caller with
  | .writing wanted left read next =>
    if read.version = state.cell.version then
      { cell := ⟨next, state.cell.version + 1⟩
        callers := update state.callers caller .idle
        log := state.log ++ [wanted] }
    else state.put caller (if left ≤ 1 then .idle else .reading wanted (left - 1))
  | _ => state

/-- The backend answers with an error and without effect. -/
def fail : CasState ι α op := state.put caller .idle

def apply : CasLabel ι op input → CasState ι α op
  | .call caller wanted => state.call attempts caller wanted
  | .read caller seen => state.read mutate caller seen
  | .write caller => state.write caller
  | .fail caller => state.fail caller

end CasState

def casSystem (start : α) : System (CasState ι α op) (CasLabel ι op input) :=
  .ofFunction
    (fun state => state.cell.value = start ∧ (∀ caller, state.callers caller = .idle) ∧
      state.log = [])
    (CasState.apply mutate attempts)

/-- The log is serial, and a pending write was computed from the value the cell has as
long as its version stands. -/
structure CasState.Consistent (start : α) (state : CasState ι α op) : Prop where
  serial : Serial mutate start state.log state.cell.value
  pending : ∀ caller wanted left read next, state.callers caller = .writing wanted left read next →
    read.version ≤ state.cell.version ∧
      (read.version = state.cell.version → read.value = state.cell.value) ∧
      ∃ seen, mutate seen wanted read.value = .ok next

namespace CasState.Consistent

variable {mutate} {start : α} {state : CasState ι α op}

variable (consistent : state.Consistent mutate start)
include consistent

variable (caller : ι)

theorem put {next : Caller α op}
    (sound : ∀ wanted left read value, next = .writing wanted left read value →
      read.version ≤ state.cell.version ∧
        (read.version = state.cell.version → read.value = state.cell.value) ∧
        ∃ seen, mutate seen wanted read.value = .ok value) :
    (state.put caller next).Consistent mutate start where
  serial := consistent.serial
  pending := by
    intro other wanted left read value found
    change update state.callers caller next other = _ at found
    by_cases same : other = caller
    · rw [same, update_self] at found
      exact sound wanted left read value found
    · rw [update_of_ne same] at found
      exact consistent.pending other wanted left read value found

theorem call (wanted : op) : (state.call attempts caller wanted).Consistent mutate start := by
  unfold CasState.call
  split
  · apply consistent.put
    intro _ _ _ _ writing
    split at writing <;> cases writing
  · exact consistent

theorem read (seen : input) : (state.read mutate caller seen).Consistent mutate start := by
  unfold CasState.read
  split
  next _ _ _ =>
    apply consistent.put
    intro _ _ _ _ writing
    split at writing
    · cases writing
    · rename_i computed
      cases writing
      exact ⟨Nat.le_refl _, fun _ => rfl, seen, computed⟩
  · exact consistent

theorem write : (state.write caller).Consistent mutate start := by
  unfold CasState.write
  split
  next wanted left read next found =>
    obtain ⟨_, current, _, computed⟩ := consistent.pending caller wanted left read next found
    split
    · rename_i unchanged
      rw [current unchanged] at computed
      refine ⟨consistent.serial.snoc computed, ?_⟩
      intro other _ _ _ _ pending
      change update state.callers caller .idle other = _ at pending
      by_cases same : other = caller
      · rw [same, update_self] at pending
        cases pending
      · rw [update_of_ne same] at pending
        obtain ⟨older, _, produced⟩ := consistent.pending _ _ _ _ _ pending
        refine ⟨Nat.le_succ_of_le older, ?_, produced⟩
        intro newer
        exact absurd newer (Nat.ne_of_lt (Nat.lt_succ_of_le older))
    · apply consistent.put
      intro _ _ _ _ writing
      split at writing <;> cases writing
  · exact consistent

theorem fail : (state.fail caller).Consistent mutate start := by
  apply consistent.put
  intro _ _ _ _ writing
  cases writing

end CasState.Consistent

/-- The successful calls of every interleaving are serializable. -/
theorem casSystem_serial {start : α} {guard : CasState ι α op → CasLabel ι op input → Prop}
    {state : CasState ι α op} (reached : (casSystem mutate attempts start).Reachable guard state) :
    Serial mutate start state.log state.cell.value := by
  have consistent := reached.invariant (CasState.Consistent mutate start) ?_ ?_
  · exact consistent.serial
  · rintro first ⟨value, idle, log⟩
    refine ⟨by rw [value, log]; exact .nil start, ?_⟩
    intro caller _ _ _ _ found
    rw [idle caller] at found
    cases found
  · rintro before label _ consistent _ rfl
    cases label with
    | call caller wanted => exact consistent.call attempts caller wanted
    | read caller seen => exact consistent.read caller seen
    | write caller => exact consistent.write caller
    | fail caller => exact consistent.fail caller

end

end Ironclaw.Lib
