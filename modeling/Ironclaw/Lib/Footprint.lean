/-!
# Footprints

What an operation on a store touches, told from its answers and the states it leaves:
a place is read if the answer depends on what is kept there, written if something new
stands there afterwards and deleted if something is gone.
-/

namespace Ironclaw.Lib

inductive Access where
  | read
  | write
  | delete
  deriving DecidableEq

/-- How a store of type `σ` is seen at its places. -/
structure Observer (σ κ : Type) where
  /-- The states differ at most in what is kept at the place. -/
  alike : κ → σ → σ → Prop
  wrote : κ → σ → σ → Prop
  erased : κ → σ → σ → Prop
  not_wrote_self : ∀ place state, ¬wrote place state state
  not_erased_self : ∀ place state, ¬erased place state state

namespace Observer

variable {σ κ α β : Type} (observer : Observer σ κ)

/-- The operation, run from the state, accesses the place. -/
def Touches (operation : σ → α × σ) (before : σ) : Access → κ → Prop
  | .read, place =>
    ∃ other, observer.alike place before other ∧ (operation other).1 ≠ (operation before).1
  | .write, place => observer.wrote place before (operation before).2
  | .delete, place => observer.erased place before (operation before).2

def Within (operation : σ → α × σ) (allowed : Access → κ → Prop) : Prop :=
  ∀ before access place, observer.Touches operation before access place → allowed access place

variable {observer} {operation : σ → α × σ} {allowed : Access → κ → Prop}

theorem Within.mono {more : Access → κ → Prop} (within : observer.Within operation allowed)
    (grows : ∀ access place, allowed access place → more access place) :
    observer.Within operation more :=
  fun before access place touched => grows access place (within before access place touched)

theorem Within.map (change : α → β) (within : observer.Within operation allowed) :
    observer.Within (fun state => (change (operation state).1, (operation state).2)) allowed := by
  intro before access place touched
  refine within before access place ?_
  cases access with
  | read =>
    obtain ⟨other, alike, differs⟩ := touched
    exact ⟨other, alike, fun same => differs (congrArg change same)⟩
  | write | delete => exact touched

/-- An operation that only looks touches what its answer depends on. -/
theorem within_look {look : σ → α}
    (depends : ∀ before other place, observer.alike place before other →
      look other ≠ look before → allowed .read place) :
    observer.Within (fun state => (look state, state)) allowed := by
  intro before access place touched
  cases access with
  | read =>
    obtain ⟨other, alike, differs⟩ := touched
    exact depends before other place alike differs
  | write => exact absurd touched (observer.not_wrote_self place before)
  | delete => exact absurd touched (observer.not_erased_self place before)

theorem within_refusal (answer : α) : observer.Within (fun state => (answer, state)) allowed :=
  within_look fun _ _ _ _ differs => absurd rfl differs

/-- An operation whose answer shows nothing that is kept touches what it changes. -/
theorem within_change (blind : ∀ before other place, observer.alike place before other →
      (operation other).1 = (operation before).1)
    (writes : ∀ before place, observer.wrote place before (operation before).2 →
      allowed .write place)
    (deletes : ∀ before place, observer.erased place before (operation before).2 →
      allowed .delete place) : observer.Within operation allowed := by
  intro before access place touched
  cases access with
  | read =>
    obtain ⟨other, alike, differs⟩ := touched
    exact absurd (blind before other place alike) differs
  | write => exact writes before place touched
  | delete => exact deletes before place touched

end Observer

end Ironclaw.Lib
