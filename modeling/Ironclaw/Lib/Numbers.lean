import Mathlib.Algebra.Order.Ring.Abs

/-!
# Number formats

An unsigned integer of a fixed width is a natural number with an upper bound.  Sums stop at
the bound and differences stop at zero.

A decimal has a mantissa of 96 bits and at most 28 decimal places.
Every such number is a whole number of units of `10 ^ -28`, which is how the model
stores it, with the proof that some scale writes it down.  A sum that no scale writes down
exactly is rounded, half to even, at the largest scale at which the mantissa still has 96
bits.  When there is none the addition overflows.
-/

namespace Ironclaw.Lib

@[ext]
structure Bounded (max : Nat) where
  value : Nat
  le_max : value ≤ max
  deriving DecidableEq

namespace Bounded

variable {max : Nat}

def zero : Bounded max := ⟨0, Nat.zero_le max⟩

instance (number : Nat) : OfNat (Bounded max) number := ⟨min number max, Nat.min_le_right _ _⟩

/-- The value of a narrower type, as `u64::from` reads it. -/
def widen {wide : Nat} (number : Bounded max) (fits : max ≤ wide) : Bounded wide :=
  ⟨number.value, Nat.le_trans number.le_max fits⟩

variable (first second : Bounded max)

def saturatingAdd : Bounded max :=
  ⟨min (first.value + second.value) max, Nat.min_le_right _ _⟩

def saturatingSub : Bounded max :=
  ⟨first.value - second.value, Nat.le_trans (Nat.sub_le _ _) first.le_max⟩

@[simp] theorem saturatingSub_value :
    (first.saturatingSub second).value = first.value - second.value := rfl

theorem cast_saturatingAdd {first second : Bounded max}
    (inRange : (first.value : Int) + second.value ≤ max) :
    ((first.saturatingAdd second).value : Int) = first.value + second.value := by
  have uncut : (first.saturatingAdd second).value = _ := Nat.min_eq_left (by omega)
  rw [uncut, Int.natCast_add]

theorem cast_saturatingSub {first second : Bounded max} (le : (second.value : Int) ≤ first.value) :
    ((first.saturatingSub second).value : Int) = first.value - second.value := by
  rw [saturatingSub_value]
  omega

end Bounded

/-! ## Decimals -/

variable {scale : Nat}

namespace Decimal

def maxScale : Nat := 28

/-- The units in the last place of a number with `scale` decimal places. -/
def quantum (scale : Nat) : Int := 10 ^ (maxScale - scale)

def mantissaBound : Int := 2 ^ 96

/-- The number of `units` is written exactly with `scale` decimal places. -/
def FitsAt (scale : Nat) (units : Int) : Prop :=
  quantum scale ∣ units ∧ |units| < mantissaBound * quantum scale

instance (scale : Nat) (units : Int) : Decidable (FitsAt scale units) :=
  inferInstanceAs (Decidable (_ ∧ _))

/-- Some scale writes the number down.  Scales beyond the last one write what it writes. -/
def Representable (units : Int) : Prop := ∃ scale, FitsAt scale units

theorem quantum_pos (scale : Nat) : 0 < quantum scale := Int.pow_pos (by decide)

theorem fitsAt_zero (scale : Nat) : FitsAt scale 0 :=
  ⟨Int.dvd_zero _, by
    rw [abs_zero]
    exact Int.mul_pos (by decide) (quantum_pos scale)⟩

theorem FitsAt.of_le {small large : Int} (fits : FitsAt scale large)
    (divides : quantum scale ∣ small) (nonneg : 0 ≤ small) (le : small ≤ large) :
    FitsAt scale small := by
  refine ⟨divides, ?_⟩
  rw [abs_of_nonneg nonneg]
  exact (le.trans (le_abs_self large)).trans_lt fits.2

end Decimal

/-- A decimal, counted in units of `10 ^ -28`. -/
@[ext]
structure Decimal where
  units : Int
  representable : Decimal.Representable units
  deriving DecidableEq

namespace Decimal

def zero : Decimal := ⟨0, maxScale, fitsAt_zero _⟩

def max : Decimal := ⟨(mantissaBound - 1) * quantum 0, 0, by decide⟩

/-- The nearest multiple of the quantum, in quanta; a tie goes to the even one. -/
def roundHalfEven (units quantum : Int) : Int :=
  let floor := units / quantum
  let rest := units % quantum
  if 2 * rest > quantum ∨ 2 * rest = quantum ∧ floor % 2 = 1 then floor + 1 else floor

variable {units : Int}

theorem roundHalfEven_of_dvd {quantum : Int} (positive : 0 < quantum)
    (divides : quantum ∣ units) : roundHalfEven units quantum * quantum = units := by
  have noRest : units % quantum = 0 := Int.emod_eq_zero_of_dvd divides
  have notAbove : ¬ (2 * (units % quantum) > quantum ∨
      2 * (units % quantum) = quantum ∧ units / quantum % 2 = 1) := by omega
  unfold roundHalfEven
  rw [if_neg notAbove, Int.ediv_mul_cancel divides]

theorem fitsAt_mul_quantum {mantissa : Int} (small : |mantissa| < mantissaBound) :
    FitsAt scale (mantissa * quantum scale) := by
  refine ⟨Int.dvd_mul_left _ _, ?_⟩
  simp only [abs_mul, abs_of_pos (quantum_pos scale)]
  exact Int.mul_lt_mul_of_pos_right small (quantum_pos scale)

theorem small_of_fitsAt (fits : FitsAt scale units) :
    |roundHalfEven units (quantum scale)| < mantissaBound := by
  have written := roundHalfEven_of_dvd (quantum_pos scale) fits.1
  have bound := fits.2
  rw [← written] at bound
  simp only [abs_mul, abs_of_pos (quantum_pos scale)] at bound
  exact lt_of_mul_lt_mul_right bound (quantum_pos scale).le

/-- Round to `scale` decimal places, if the mantissa has room for that. -/
def place (scale : Nat) (units : Int) : Option Decimal :=
  if small : |roundHalfEven units (quantum scale)| < mantissaBound then
    some ⟨roundHalfEven units (quantum scale) * quantum scale, scale, fitsAt_mul_quantum small⟩
  else none

/-- Write the number down with as many of the `scale` decimal places as the mantissa has
room for. -/
def settle : Nat → Int → Option Decimal
  | 0, units => place 0 units
  | coarser + 1, units => (place (coarser + 1) units).or (settle coarser units)

theorem units_of_place {number : Decimal}
    (divides : quantum scale ∣ units) (placed : place scale units = some number) :
    number.units = units := by
  unfold place at placed
  split at placed
  · cases placed
    exact roundHalfEven_of_dvd (quantum_pos scale) divides
  · cases placed

theorem place_of_fitsAt (fits : FitsAt scale units) : ∃ number, place scale units = some number :=
  ⟨_, dif_pos (small_of_fitsAt fits)⟩

theorem settle_of_fitsAt {coarse : Nat} (fits : FitsAt coarse units) (le : coarse ≤ scale) :
    ∃ number, settle scale units = some number ∧ number.units = units := by
  induction scale with
  | zero =>
    obtain rfl := Nat.le_zero.mp le
    obtain ⟨number, placed⟩ := place_of_fitsAt fits
    exact ⟨number, placed, units_of_place fits.1 placed⟩
  | succ finer ih =>
    cases placed : place (finer + 1) units with
    | some number =>
      refine ⟨number, ?_, units_of_place
        ((pow_dvd_pow 10 (Nat.sub_le_sub_left le maxScale)).trans fits.1) placed⟩
      rw [settle, placed, Option.some_or]
    | none =>
      have different : coarse ≠ finer + 1 := by
        rintro rfl
        obtain ⟨_, found⟩ := place_of_fitsAt fits
        cases placed.symm.trans found
      rw [settle, placed, Option.none_or]
      exact ih (by omega)

-- Sums are described by the lemmas here and never evaluated digit by digit.
attribute [irreducible] settle

theorem settle_of_representable (fits : Representable units) :
    ∃ number, settle maxScale units = some number ∧ number.units = units := by
  obtain ⟨scale, fitsAt⟩ := fits
  rcases Nat.le_total scale maxScale with inRange | beyond
  · exact settle_of_fitsAt fitsAt inRange
  have same : quantum scale = quantum maxScale := by
    rw [quantum, quantum, Nat.sub_eq_zero_of_le beyond, Nat.sub_self]
  have fitsLast : FitsAt maxScale units := by
    rw [FitsAt, ← same]
    exact fitsAt
  exact settle_of_fitsAt fitsLast (Nat.le_refl _)

def checkedAdd (first second : Decimal) : Option Decimal :=
  settle maxScale (first.units + second.units)

def checkedSub (first second : Decimal) : Option Decimal :=
  settle maxScale (first.units - second.units)

variable {first second : Decimal}

theorem checkedAdd_of_fits (fits : Representable (first.units + second.units)) :
    ∃ sum, first.checkedAdd second = some sum ∧ sum.units = first.units + second.units :=
  settle_of_representable fits

/-- `checked_add(..).unwrap_or(Decimal::MAX)`. -/
def addOrMax (first second : Decimal) : Decimal := (first.checkedAdd second).getD max

/-- `checked_sub(..)` held at zero, and zero when it fails. -/
def subOrZero (first second : Decimal) : Decimal :=
  match first.checkedSub second with
  | some difference => if difference.units < 0 then zero else difference
  | none => zero

theorem addOrMax_of_fits (fits : Representable (first.units + second.units)) :
    (first.addOrMax second).units = first.units + second.units := by
  obtain ⟨_, added, sum⟩ := checkedAdd_of_fits fits
  rw [addOrMax, added]
  exact sum

theorem subOrZero_of_fits (le : second.units ≤ first.units)
    (fits : Representable (first.units - second.units)) :
    (first.subOrZero second).units = first.units - second.units := by
  obtain ⟨difference, subtracted, sum⟩ := settle_of_representable fits
  rw [subOrZero, checkedSub, subtracted]
  have nonneg : ¬ difference.units < 0 := by omega
  exact (congrArg units (if_neg nonneg)).trans sum

end Decimal

end Ironclaw.Lib
