import Mathlib.Logic.Relation

/-!
# Transition systems

A system has initial states and labelled steps.  `Reachable guard` follows only
the steps whose label meets `guard` in the state before the step, so the runs of
the whole system are those with the trivial guard and a restriction on callers
is a stronger guard.
-/

namespace Ironclaw.Lib

structure System (σ α : Type) where
  init : σ → Prop
  step : σ → α → σ → Prop

namespace System

variable {σ α : Type} (system : System σ α)

def anyStep : σ → α → Prop := fun _ _ => True

inductive Reachable (guard : σ → α → Prop) : σ → Prop where
  | start {state : σ} : system.init state → Reachable guard state
  | next {before after : σ} {label : α} :
      Reachable guard before → guard before label → system.step before label after →
      Reachable guard after

variable {system} {guard : σ → α → Prop} {γ : Type} {start : γ} {weaker : σ → α → Prop}
    {record : σ → α → γ → γ} {init : σ → Prop} {state : σ} {next : σ → α → σ}

/-- An invariant of the initial states that guarded steps keep holds in every
state a guarded run reaches. -/
theorem Reachable.invariant (invariant : σ → Prop)
    (atStart : ∀ state, system.init state → invariant state)
    (kept : ∀ before label after, invariant before → guard before label →
      system.step before label after → invariant after) (reached : system.Reachable guard state) :
    invariant state := by
  induction reached with
  | start initial => exact atStart _ initial
  | next _ allowed step ih => exact kept _ _ _ ih allowed step

theorem Reachable.weaken (implied : ∀ state label, guard state label → weaker state label)
    (reached : system.Reachable guard state) : system.Reachable weaker state := by
  induction reached with
  | start initial => exact .start initial
  | next _ allowed step ih => exact .next ih (implied _ _ allowed) step

/-! ## Deterministic steps -/

/-- A system whose labels are functions of the state. -/
def ofFunction (init : σ → Prop) (next : σ → α → σ) : System σ α where
  init
  step before label after := after = next before label

/-- Every label of the list meets the guard in the state it is taken in. -/
def AllowedAlong (guard : σ → α → Prop) (next : σ → α → σ) : σ → List α → Prop
  | _, [] => True
  | state, label :: rest => guard state label ∧ AllowedAlong guard next (next state label) rest

instance decidableAllowedAlong [∀ state label, Decidable (guard state label)]
    (next : σ → α → σ) : ∀ state labels, Decidable (AllowedAlong guard next state labels)
  | _, [] => inferInstanceAs (Decidable True)
  | state, label :: rest =>
    @instDecidableAnd _ _ _ (decidableAllowedAlong next (next state label) rest)

theorem AllowedAlong.mono (implied : ∀ state label, guard state label → weaker state label)
    {labels : List α} (allowed : AllowedAlong guard next state labels) :
    AllowedAlong weaker next state labels := by
  induction labels generalizing state with
  | nil => trivial
  | cons _ _ ih => exact ⟨implied _ _ allowed.1, ih allowed.2⟩

theorem Reachable.along {β : Type} {may : σ → β → Prop} {move : σ → β → σ}
    (reached : system.Reachable guard state) (label : β → α) (calls : List β)
    (allowed : AllowedAlong may move state calls) (steps : ∀ state call, may state call →
      guard state (label call) ∧ system.step state (label call) (move state call)) :
    system.Reachable guard (calls.foldl move state) := by
  induction calls generalizing state with
  | nil => exact reached
  | cons call _ ih =>
    obtain ⟨passes, step⟩ := steps state call allowed.1
    exact ih (.next reached passes step) allowed.2

theorem Reachable.followAllowed (reached : (ofFunction init next).Reachable guard state)
    (labels : List α) (allowed : AllowedAlong guard next state labels) :
    (ofFunction init next).Reachable guard (labels.foldl next state) :=
  reached.along id labels allowed fun _ _ passes => ⟨passes, rfl⟩

theorem allowedAlong_of_forall {labels : List α}
    (allowed : ∀ state, ∀ label ∈ labels, guard state label) (state : σ) :
    AllowedAlong guard next state labels := by
  induction labels generalizing state with
  | nil => trivial
  | cons label _ ih =>
    exact ⟨allowed state label (.head _), ih (fun _ _ later => allowed _ _ (.tail _ later)) _⟩

theorem allowedAlong_anyStep (next : σ → α → σ) (state : σ) (labels : List α) :
    AllowedAlong anyStep next state labels :=
  allowedAlong_of_forall (fun _ _ _ => trivial) state

theorem Reachable.follow (reached : (ofFunction init next).Reachable anyStep state)
    (labels : List α) : (ofFunction init next).Reachable anyStep (labels.foldl next state) :=
  reached.followAllowed labels (allowedAlong_anyStep next state labels)

/-- A system whose labels are functions of the state that are not always enabled. -/
def ofAction (init : σ → Prop) (enabled : σ → α → Prop) (next : σ → α → σ) : System σ α where
  init
  step before label after := enabled before label ∧ after = next before label

theorem Reachable.followEnabled {enabled : σ → α → Prop}
    (reached : (ofAction init enabled next).Reachable guard state) (labels : List α)
    (allowed : AllowedAlong (fun state label => guard state label ∧ enabled state label) next
      state labels) : (ofAction init enabled next).Reachable guard (labels.foldl next state) :=
  reached.along id labels allowed fun _ _ both => ⟨both.1, both.2, rfl⟩

/-! ## Histories -/

/-- The system with a history variable that every step updates and no step reads. -/
def withHistory {γ : Type} (system : System σ α) (start : γ) (record : σ → α → γ → γ) :
    System (σ × γ) α where
  init state := system.init state.1 ∧ state.2 = start
  step before label after :=
    system.step before.1 label after.1 ∧ after.2 = record before.1 label before.2

theorem Reachable.followHistory {guard : σ × γ → α → Prop} {state : σ × γ}
    (reached : ((ofFunction init next).withHistory start record).Reachable guard state)
    (labels : List α) (allowed : AllowedAlong guard
      (fun state label => (next state.1 label, record state.1 label state.2)) state labels) :
    ((ofFunction init next).withHistory start record).Reachable guard
      (labels.foldl (fun state label => (next state.1 label, record state.1 label state.2))
        state) :=
  reached.along id labels allowed fun _ _ passes => ⟨passes, rfl, rfl⟩

theorem Reachable.forget {guard : σ × γ → α → Prop} {state : σ × γ}
    (reached : (system.withHistory start record).Reachable guard state) :
    system.Reachable anyStep state.1 := by
  induction reached with
  | start initial => exact .start initial.1
  | next _ _ step ih => exact .next ih trivial step.1

end System

end Ironclaw.Lib
