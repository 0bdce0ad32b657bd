import Ironclaw.HostApi.Scope
import Ironclaw.Lib.Numbers

/-!
# Resource tallies

A tally holds one amount for each dimension: dollars as a decimal, counts as machine
integers.  Tallies are added and subtracted in place with saturation.  `amount` reads a
dimension as an exact integer, and the sums are exact in a dimension that can hold the
true result.
-/

namespace Ironclaw.Resources

open Lib
open Bounded (ext)

abbrev U64 := Bounded (2 ^ 64 - 1)

abbrev U32 := Bounded (2 ^ 32 - 1)

def U64.max : U64 := ⟨2 ^ 64 - 1, Nat.le_refl _⟩

def U64.fromU32 (count : U32) : U64 := count.widen (by decide)

inductive ResourceDimension where
  | usd
  | inputTokens
  | outputTokens
  | wallClockMs
  | outputBytes
  | networkEgressBytes
  | processCount
  | concurrencySlots
  deriving DecidableEq

structure ResourceEstimate where
  usd : Option Decimal := none
  inputTokens : Option U64 := none
  outputTokens : Option U64 := none
  wallClockMs : Option U64 := none
  outputBytes : Option U64 := none
  networkEgressBytes : Option U64 := none
  processCount : Option U32 := none
  concurrencySlots : Option U32 := none

structure ResourceUsage where
  usd : Decimal := .zero
  inputTokens : U64 := .zero
  outputTokens : U64 := .zero
  wallClockMs : U64 := .zero
  outputBytes : U64 := .zero
  networkEgressBytes : U64 := .zero
  processCount : U32 := .zero

structure ResourceTally where
  usd : Decimal := .zero
  inputTokens : U64 := .zero
  outputTokens : U64 := .zero
  wallClockMs : U64 := .zero
  outputBytes : U64 := .zero
  networkEgressBytes : U64 := .zero
  processCount : U32 := .zero
  concurrencySlots : U32 := .zero
  deriving DecidableEq

namespace ResourceTally

def zero : ResourceTally := {}

def fromEstimate (estimate : ResourceEstimate) : ResourceTally where
  usd := estimate.usd.getD .zero
  inputTokens := estimate.inputTokens.getD .zero
  outputTokens := estimate.outputTokens.getD .zero
  wallClockMs := estimate.wallClockMs.getD .zero
  outputBytes := estimate.outputBytes.getD .zero
  networkEgressBytes := estimate.networkEgressBytes.getD .zero
  processCount := estimate.processCount.getD .zero
  concurrencySlots := estimate.concurrencySlots.getD .zero

def fromUsage (usage : ResourceUsage) : ResourceTally where
  usd := usage.usd
  inputTokens := usage.inputTokens
  outputTokens := usage.outputTokens
  wallClockMs := usage.wallClockMs
  outputBytes := usage.outputBytes
  networkEgressBytes := usage.networkEgressBytes
  processCount := usage.processCount
  concurrencySlots := .zero

def addAssign (self other : ResourceTally) : ResourceTally where
  usd := self.usd.addOrMax other.usd
  inputTokens := self.inputTokens.saturatingAdd other.inputTokens
  outputTokens := self.outputTokens.saturatingAdd other.outputTokens
  wallClockMs := self.wallClockMs.saturatingAdd other.wallClockMs
  outputBytes := self.outputBytes.saturatingAdd other.outputBytes
  networkEgressBytes := self.networkEgressBytes.saturatingAdd other.networkEgressBytes
  processCount := self.processCount.saturatingAdd other.processCount
  concurrencySlots := self.concurrencySlots.saturatingAdd other.concurrencySlots

def subAssign (self other : ResourceTally) : ResourceTally where
  usd := self.usd.subOrZero other.usd
  inputTokens := self.inputTokens.saturatingSub other.inputTokens
  outputTokens := self.outputTokens.saturatingSub other.outputTokens
  wallClockMs := self.wallClockMs.saturatingSub other.wallClockMs
  outputBytes := self.outputBytes.saturatingSub other.outputBytes
  networkEgressBytes := self.networkEgressBytes.saturatingSub other.networkEgressBytes
  processCount := self.processCount.saturatingSub other.processCount
  concurrencySlots := self.concurrencySlots.saturatingSub other.concurrencySlots

/-- What a tally says of one dimension: dollars in units of `10 ^ -28`, counts as they are. -/
def amount (tally : ResourceTally) : ResourceDimension → Int
  | .usd => tally.usd.units
  | .inputTokens => tally.inputTokens.value
  | .outputTokens => tally.outputTokens.value
  | .wallClockMs => tally.wallClockMs.value
  | .outputBytes => tally.outputBytes.value
  | .networkEgressBytes => tally.networkEgressBytes.value
  | .processCount => tally.processCount.value
  | .concurrencySlots => tally.concurrencySlots.value

end ResourceTally

/-- The largest count of a dimension; dollars have no such count. -/
def ResourceDimension.maxCount : ResourceDimension → Option Nat
  | .usd => none
  | .processCount | .concurrencySlots => some (2 ^ 32 - 1)
  | _ => some (2 ^ 64 - 1)

/-- The amounts that a dimension can hold: counts up to the largest, and dollars that are
written with `scale` decimal places. -/
def ResourceDimension.Holds (scale : Nat) (dimension : ResourceDimension) (amount : Int) : Prop :=
  match dimension.maxCount with
  | none => Decimal.FitsAt scale amount
  | some largest => 0 ≤ amount ∧ amount ≤ largest

instance (scale : Nat) (dimension : ResourceDimension) (amount : Int) :
    Decidable (dimension.Holds scale amount) := by
  unfold ResourceDimension.Holds
  cases dimension.maxCount <;> exact inferInstance

namespace ResourceTally

@[simp] theorem amount_zero (dimension : ResourceDimension) : zero.amount dimension = 0 := by
  cases dimension <;> rfl

variable {scale : Nat} {dimension : ResourceDimension} {first second : ResourceTally}

theorem ext_amount (same : ∀ dimension, first.amount dimension = second.amount dimension) :
    first = second := by
  have dollars := same .usd
  have counts : first.inputTokens = second.inputTokens ∧ first.outputTokens = second.outputTokens ∧
      first.wallClockMs = second.wallClockMs ∧ first.outputBytes = second.outputBytes ∧
      first.networkEgressBytes = second.networkEgressBytes ∧
      first.processCount = second.processCount ∧
      first.concurrencySlots = second.concurrencySlots :=
    ⟨ext (Int.ofNat_inj.mp (same .inputTokens)), ext (Int.ofNat_inj.mp (same .outputTokens)),
      ext (Int.ofNat_inj.mp (same .wallClockMs)), ext (Int.ofNat_inj.mp (same .outputBytes)),
      ext (Int.ofNat_inj.mp (same .networkEgressBytes)),
      ext (Int.ofNat_inj.mp (same .processCount)), ext (Int.ofNat_inj.mp (same .concurrencySlots))⟩
  cases first
  cases second
  simp only [amount] at dollars
  simp_all [Decimal.ext_iff]

theorem amount_addAssign
    (holds : dimension.Holds scale (first.amount dimension + second.amount dimension)) :
    (first.addAssign second).amount dimension =
      first.amount dimension + second.amount dimension := by
  cases dimension with
  | usd => exact Decimal.addOrMax_of_fits ⟨scale, holds⟩
  | _ => exact Bounded.cast_saturatingAdd holds.2

theorem amount_subAssign (le : second.amount dimension ≤ first.amount dimension)
    (holds : dimension.Holds scale (first.amount dimension - second.amount dimension)) :
    (first.subAssign second).amount dimension =
      first.amount dimension - second.amount dimension := by
  cases dimension with
  | usd => exact Decimal.subOrZero_of_fits le ⟨scale, holds⟩
  | _ => exact Bounded.cast_saturatingSub le

end ResourceTally

end Ironclaw.Resources
