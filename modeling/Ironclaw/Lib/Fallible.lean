/-!
# Computations that can fail

A chain of fallible steps succeeds exactly when every step does, each with the value the
next one is given.
-/

namespace Ironclaw.Lib

variable {ε α β : Type}

theorem bind_eq_ok {first : Except ε α} {next : α → Except ε β} {result : β} :
    (first >>= next) = .ok result ↔ ∃ value, first = .ok value ∧ next value = .ok result := by
  cases first <;> simp [bind, Except.bind]

theorem map_eq_ok {change : α → β} {first : Except ε α} {result : β} :
    first.map change = .ok result ↔ ∃ value, first = .ok value ∧ change value = result := by
  cases first <;> simp [Except.map]

end Ironclaw.Lib
