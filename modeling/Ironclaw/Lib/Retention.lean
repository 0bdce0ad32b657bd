import Mathlib.Logic.Function.Basic

/-!
# Retention of memoised results

A store keeps the result of a keyed operation and may drop it again.  The time in which
a result is kept without interruption is a period.  If every step either replays the
kept result or finds none before it creates anything, then each period sees at most one
creation and all values answered in it are equal.
-/

namespace Ironclaw.Lib

open Function

/-- What has happened for one key so far: the number of the period, how much of each kind
was created in each period, and the period in which each call got its result. -/
structure Retention (ι κ : Type) where
  period : Nat
  created : κ → Nat → Nat
  decidedIn : ι → Nat

namespace Retention

variable {ι κ ε α : Type}

def start : Retention ι κ := ⟨0, fun _ _ => 0, fun _ => 0⟩

/-- One step as seen from the key: the result kept before and after it, how much of each
kind it creates for the key, and what it answers. -/
inductive Attempt (before after : Option (Except ε α)) (created : κ → Nat)
    (answer : Option (Except ε α)) : Prop where
  | replayed (result : Except ε α) (held : before = some result)
      (kept : after = some result ∨ after = none) (idle : ∀ kind, created kind = 0)
      (same : ∀ given, answer = some given → given = result)
  | refused (absent : before = none) (idle : ∀ kind, created kind = 0)
      (failed : ∀ value, answer ≠ some (.ok value))
  | accepted (value : α) (absent : before = none)
      (kept : after = some (.ok value) ∨ after = none) (once : ∀ kind, created kind ≤ 1)
      (same : ∀ given, answer = some given → given = .ok value)

section

variable [DecidableEq ι]

/-- Book a step.  A step after which no result is kept ends the period. -/
def record (retention : Retention ι κ) (kept : Bool) (created : κ → Nat) (caller : Option ι) :
    Retention ι κ where
  period := if kept then retention.period else retention.period + 1
  created kind := update (retention.created kind) retention.period
    (retention.created kind retention.period + created kind)
  decidedIn := match caller with
    | none => retention.decidedIn
    | some call => update retention.decidedIn call retention.period

/-- The results of the calls after a step that decided one of them, or none. -/
def settle (outcome : ι → Option (Except ε α)) (answer : Option (Except ε α)) :
    Option ι → ι → Option (Except ε α)
  | none => outcome
  | some call => update outcome call answer

end

/-- Each period saw at most one creation, and the values answered in it are equal. -/
structure Consistent (retention : Retention ι κ) (entry : Option (Except ε α))
    (outcome : ι → Option (Except ε α)) : Prop where
  idle : entry = none → ∀ kind, retention.created kind retention.period = 0
  once : ∀ kind period, retention.created kind period ≤ 1
  fresh : ∀ kind period, retention.period < period → retention.created kind period = 0
  past : ∀ call value, outcome call = some (.ok value) → retention.decidedIn call ≤ retention.period
  current : ∀ call value, outcome call = some (.ok value) →
    retention.decidedIn call = retention.period → entry = some (.ok value)
  agree : ∀ first second firstValue secondValue, outcome first = some (.ok firstValue) →
    outcome second = some (.ok secondValue) →
    retention.decidedIn first = retention.decidedIn second → firstValue = secondValue

theorem consistent_start : (start : Retention ι κ).Consistent (none : Option (Except ε α))
    fun _ => none where
  idle _ _ := rfl
  once _ _ := Nat.zero_le 1
  fresh _ _ _ := rfl
  past := nofun
  current := nofun
  agree := nofun

section

variable {before after answer : Option (Except ε α)} {created : κ → Nat}

section

variable (attempt : Attempt before after created answer)
include attempt

theorem Attempt.created_le_one (kind : κ) : created kind ≤ 1 := by
  cases attempt with
  | replayed _ _ _ idle | refused _ idle => exact (idle kind).symm ▸ Nat.zero_le 1
  | accepted _ _ _ once => exact once kind

theorem Attempt.unanswered : Attempt before after created none := by
  cases attempt with
  | replayed result held kept idle => exact .replayed result held kept idle nofun
  | refused absent idle => exact .refused absent idle nofun
  | accepted value absent kept once => exact .accepted value absent kept once nofun

theorem Attempt.created_of_held (held : before ≠ none) (kind : κ) : created kind = 0 := by
  cases attempt with
  | replayed _ _ _ idle => exact idle kind
  | refused absent | accepted _ absent => exact absurd absent held

theorem Attempt.after_of_answer {value : α} (answered : answer = some (.ok value))
    (kept : after ≠ none) : after = some (.ok value) := by
  cases attempt with
  | replayed _ _ stays _ same | accepted _ _ stays _ same =>
    rw [same _ answered]
    exact stays.resolve_right kept
  | refused _ _ failed => exact absurd answered (failed value)

theorem Attempt.after_of_before {value : α} (held : before = some (.ok value))
    (kept : after ≠ none) : after = some (.ok value) := by
  cases attempt with
  | replayed _ stored stays =>
    rw [← held, stored]
    exact stays.resolve_right kept
  | refused absent | accepted _ absent => cases absent.symm.trans held

theorem Attempt.answer_of_before {value other : α} (held : before = some (.ok value))
    (answered : answer = some (.ok other)) : other = value := by
  cases attempt with
  | replayed _ stored _ _ same =>
    have given := same _ answered
    rw [stored, ← given] at held
    cases held
    rfl
  | refused absent | accepted _ absent => cases absent.symm.trans held

end

variable [DecidableEq ι] {retention : Retention ι κ} {outcome : ι → Option (Except ε α)}

theorem decided_cases (kept : Bool) (created : κ → Nat) {caller : Option ι} {call : ι} {value : α}
    (decided : settle outcome answer caller call = some (.ok value)) : (answer = some (.ok value) ∧
        (retention.record kept created caller).decidedIn call = retention.period) ∨
      (outcome call = some (.ok value) ∧
        (retention.record kept created caller).decidedIn call = retention.decidedIn call) := by
  cases caller with
  | none => exact .inr ⟨decided, rfl⟩
  | some chosen =>
    by_cases same : call = chosen
    · subst same
      rw [settle, update_self] at decided
      refine .inl ⟨decided, ?_⟩
      simp only [record, update_self]
    · rw [settle, update_of_ne same] at decided
      refine .inr ⟨decided, ?_⟩
      simp only [record, update_of_ne same]

theorem Consistent.record (consistent : retention.Consistent before outcome)
    (attempt : Attempt before after created answer) (caller : Option ι) :
    (retention.record after.isSome created caller).Consistent after
      (settle outcome answer caller) := by
  have lasts : after ≠ none →
      (retention.record after.isSome created caller).period = retention.period :=
    fun kept => if_pos (Option.isSome_iff_ne_none.mpr kept)
  have ends : after = none →
      (retention.record after.isSome created caller).period = retention.period + 1 := by
    rintro rfl
    rfl
  have grows : retention.period ≤ (retention.record after.isSome created caller).period := by
    unfold Retention.record
    dsimp only
    split <;> omega
  have untouched : ∀ kind period, period ≠ retention.period →
      (retention.record after.isSome created caller).created kind period =
        retention.created kind period :=
    fun kind period different => update_of_ne different _ _
  have past : ∀ call value, settle outcome answer caller call = some (.ok value) →
      (retention.record after.isSome created caller).decidedIn call ≤ retention.period := by
    intro call value decided
    rcases decided_cases after.isSome created decided with ⟨_, now⟩ | ⟨earlier, same⟩
    · exact Nat.le_of_eq now
    · rw [same]
      exact consistent.past call value earlier
  refine ⟨?_, ?_, ?_, ?_, ?_, ?_⟩
  · intro absent kind
    rw [ends absent, untouched kind _ (by omega)]
    exact consistent.fresh kind _ (by omega)
  · intro kind period
    by_cases now : period = retention.period
    · subst now
      have counted : (retention.record after.isSome created caller).created kind
          retention.period = retention.created kind retention.period + created kind :=
        update_self _ _ _
      have before_le := consistent.once kind retention.period
      have created_le := attempt.created_le_one kind
      rw [counted]
      by_cases absent : before = none
      · have idle := consistent.idle absent kind
        omega
      · have idle := attempt.created_of_held absent kind
        omega
    · rw [untouched kind period now]
      exact consistent.once kind period
  · intro kind period later
    rw [untouched kind period (by omega)]
    exact consistent.fresh kind period (by omega)
  · intro call value decided
    exact Nat.le_trans (past call value decided) grows
  · intro call value decided now
    have kept : after ≠ none := by
      intro absent
      have ended := ends absent
      have bound := past call value decided
      omega
    rw [lasts kept] at now
    rcases decided_cases after.isSome created decided with ⟨answered, _⟩ | ⟨earlier, same⟩
    · exact attempt.after_of_answer answered kept
    · exact attempt.after_of_before (consistent.current call value earlier (same ▸ now)) kept
  · intro first second firstValue secondValue firstDecided secondDecided together
    rcases decided_cases after.isSome created firstDecided with ⟨answered, now⟩ | ⟨held, same⟩
    · rcases decided_cases after.isSome created secondDecided with
        ⟨answeredToo, _⟩ | ⟨heldToo, sameToo⟩
      · rw [answered] at answeredToo
        cases answeredToo
        rfl
      · have current := consistent.current second secondValue heldToo
          (sameToo.symm.trans (together.symm.trans now))
        exact attempt.answer_of_before current answered
    · rcases decided_cases after.isSome created secondDecided with
        ⟨answeredToo, now⟩ | ⟨heldToo, sameToo⟩
      · have current := consistent.current first firstValue held
          (same.symm.trans (together.trans now))
        exact (attempt.answer_of_before current answeredToo).symm
      · exact consistent.agree first second firstValue secondValue held heldToo
          (same.symm.trans (together.trans sameToo))

end

end Retention

end Ironclaw.Lib
