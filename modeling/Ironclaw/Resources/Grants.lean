import Mathlib.Algebra.Order.Field.Basic
import Mathlib.Algebra.Order.Field.Rat
import Mathlib.Algebra.Order.Monoid.Unbundled.WithTop
import Mathlib.Data.List.ReduceOption
import Mathlib.Tactic.NormNum
import Ironclaw.Resources.Holds

/-!
# Granted reservations stay within the limits

A reservation is granted when the checks of every limited account of its cascade pass.
The checks add with saturation and round dollars, so they speak of the true sums only
where these are not cut or rounded.
-/

namespace Ironclaw.Resources

open AccountParts
open HostApi Lib ResourceState ResourceLimits ResourceAccount ResourceTally Decimal Bounded U64
open ResourceAccount (cascade cascade_nodup)
open List

/-- The sum of a check is the true one: a count is not cut at the largest one, unless the
limit is below it, and dollars are not rounded. -/
def TotalExact (dimension : ResourceDimension) (limit usage reserved requested : Int) : Prop :=
  match dimension with
  | .usd => Representable (usage + reserved) ∧ Representable (usage + reserved + requested)
  | _ => limit < 2 ^ 64 - 1 ∨ usage + reserved + requested ≤ 2 ^ 64 - 1

/-- The sum of a check is the true one, and so is the sum of the holds. -/
def SumsExact (dimension : ResourceDimension) (limit usage reserved requested : Int) : Prop :=
  TotalExact dimension limit usage reserved requested ∧
    (dimension = .usd → Representable (reserved + requested))

variable {account : ResourceAccount} {dimension : ResourceDimension} {limit : Int}

theorem totalExact_counts_iff {usage reserved requested : Int} (counted : dimension ≠ .usd) :
    TotalExact dimension limit usage reserved requested ↔
      limit < 2 ^ 64 - 1 ∨ usage + reserved + requested ≤ 2 ^ 64 - 1 := by
  cases dimension with
  | usd => exact absurd rfl counted
  | _ => rfl

section

variable [platform : Platform]

/-- The limit that binds in a dimension, in the unit of its amounts; zero does not bind. -/
def ResourceLimits.binding (limits : ResourceLimits) : ResourceDimension → Option Int
  | .usd => (limits.maxUsd.filter fun value => value.units > 0).map units
  | .inputTokens => count limits.maxInputTokens
  | .outputTokens => count limits.maxOutputTokens
  | .wallClockMs => count limits.maxWallClockMs
  | .outputBytes => count limits.maxOutputBytes
  | .networkEgressBytes => count limits.maxNetworkEgressBytes
  | .processCount => count limits.maxProcessCount
  | .concurrencySlots => count limits.maxConcurrencySlots
where
  count {max : Nat} (limit : Option (Bounded max)) : Option Int :=
    (limit.filter fun value => value.value > 0).map fun value => (value.value : Int)

variable {limits : ResourceLimits} {requested : ResourceTally} {now : DateTime}
    {id : ResourceReservationId} {estimate : ResourceEstimate} {usage reserved : ResourceTally}

/-- Every limit that binds is the one of the dollars or of a row of the counts. -/
theorem forall_binding_iff (test : ResourceDimension → Int → Int → Int → Int → Prop) :
    (∀ dimension limit, limits.binding dimension = some limit →
      test dimension limit (usage.amount dimension) (reserved.amount dimension)
        (requested.amount dimension)) ↔
    (∀ limit, limits.binding .usd = some limit →
      test .usd limit usage.usd.units reserved.usd.units requested.usd.units) ∧
    ∀ row ∈ integerRows limits usage reserved requested, ∀ limit,
      binding.count row.limit = some limit →
        test row.dimension limit row.usage.value row.reserved.value row.requested.value := by
  have narrow : ∀ maximum : Option U32, binding.count (maximum.map fromU32) =
      binding.count maximum := by
    intro maximum
    cases maximum with
    | none => rfl
    | some value => by_cases positive : value.value > 0 <;>
        simp [binding.count, fromU32, widen, Option.filter, positive]
  simp only [integerRows, forall_mem_cons, not_mem_nil, false_imp_iff, implies_true, and_true,
    narrow]
  constructor
  · intro holds
    exact ⟨holds .usd, holds .inputTokens, holds .outputTokens, holds .wallClockMs,
      holds .outputBytes, holds .networkEgressBytes, holds .processCount, holds .concurrencySlots⟩
  · rintro ⟨dollars, input, output, wallClock, bytes, egress, processes, slots⟩ dimension
    cases dimension with
    | usd => exact dollars
    | inputTokens => exact input
    | outputTokens => exact output
    | wallClockMs => exact wallClock
    | outputBytes => exact bytes
    | networkEgressBytes => exact egress
    | processCount => exact processes
    | concurrencySlots => exact slots

theorem counted_of_row {row : IntegerRow}
    (listed : row ∈ integerRows limits usage reserved requested) : row.dimension ≠ .usd := by
  simp only [integerRows, mem_cons, not_mem_nil, or_false] at listed
  rcases listed with rfl | rfl | rfl | rfl | rfl | rfl | rfl <;> simp

theorem binding_le_max (counted : dimension ≠ .usd)
    (binds : limits.binding dimension = some limit) : limit ≤ 2 ^ 64 - 1 := by
  have count : ∀ {max : Nat} {maximum : Option (Bounded max)}, max ≤ 2 ^ 64 - 1 →
      binding.count maximum = some limit → limit ≤ 2 ^ 64 - 1 := by
    intro max maximum small binds
    obtain ⟨bound, _, rfl⟩ := Option.map_eq_some_iff.mp binds
    have inRange := bound.le_max
    omega
  cases dimension with
  | usd => exact absurd rfl counted
  | processCount | concurrencySlots => exact count (by decide) binds
  | _ => exact count le_rfl binds

theorem checkDecimal_eq_none_iff
    (exact : ∀ limit, limits.binding .usd = some limit →
      TotalExact .usd limit usage.usd.units reserved.usd.units requested.usd.units) :
    checkDecimal account dimension limits.maxUsd usage.usd reserved.usd requested.usd = none ↔
      ∀ limit, limits.binding .usd = some limit →
        usage.usd.units + reserved.usd.units + requested.usd.units ≤ limit := by
  unfold checkDecimal
  cases filtered : limits.maxUsd.filter fun value => value.units > 0 with
  | none => simp [binding, filtered]
  | some bound =>
    have binds : limits.binding .usd = some bound.units := by
      rw [binding, filtered, Option.map_some]
    obtain ⟨subtotal, total⟩ := exact _ binds
    obtain ⟨_, added, firstUnits⟩ := checkedAdd_of_fits subtotal
    rw [← firstUnits] at total ⊢
    obtain ⟨_, addedAll, allUnits⟩ := checkedAdd_of_fits total
    simp [binds, added, addedAll, allUnits]

omit platform in
theorem checkInteger_eq_none_iff {row : IntegerRow}
    (exact : ∀ limit, binding.count row.limit = some limit → limit < 2 ^ 64 - 1 ∨
      (row.usage.value : Int) + row.reserved.value + row.requested.value ≤ 2 ^ 64 - 1) :
    checkInteger account row = none ↔ ∀ limit, binding.count row.limit = some limit →
      (row.usage.value : Int) + row.reserved.value + row.requested.value ≤ limit := by
  unfold checkInteger
  cases filtered : row.limit.filter fun value => value.value > 0 with
  | none =>
    have free : binding.count row.limit = none := by rw [binding.count, filtered, Option.map_none]
    simp [free]
  | some bound =>
    have inRange : bound.value ≤ 2 ^ 64 - 1 := bound.le_max
    have binds : binding.count row.limit = some (bound.value : Int) := by
      rw [binding.count, filtered, Option.map_some]
    have uncut := exact _ binds
    simp [binds, saturatingAdd]
    omega

theorem le_of_checkLimits
    (passed : checkLimitsFirstDenial account limits usage reserved requested = none) :
    ∀ dimension limit, limits.binding dimension = some limit →
      TotalExact dimension limit (usage.amount dimension) (reserved.amount dimension)
        (requested.amount dimension) →
      usage.amount dimension + reserved.amount dimension + requested.amount dimension ≤ limit := by
  obtain ⟨dollars, counts⟩ := Option.or_eq_none_iff.mp passed
  rw [findSome?_eq_none_iff] at counts
  refine (forall_binding_iff fun dimension limit usage reserved requested =>
    TotalExact dimension limit usage reserved requested → usage + reserved + requested ≤ limit).mpr
    ⟨fun limit binds exact => ?_, fun row listed limit binds exact => ?_⟩
  · refine (checkDecimal_eq_none_iff fun _ same => ?_).mp dollars limit binds
    rwa [← Option.some.inj (binds.symm.trans same)]
  · rw [totalExact_counts_iff (counted_of_row listed)] at exact
    refine (checkInteger_eq_none_iff fun _ same => ?_).mp (counts row listed) limit binds
    rwa [← Option.some.inj (binds.symm.trans same)]

theorem checkLimits_eq_none_iff (exact : ∀ dimension limit, limits.binding dimension = some limit →
      TotalExact dimension limit (usage.amount dimension) (reserved.amount dimension)
        (requested.amount dimension)) :
    checkLimitsFirstDenial account limits usage reserved requested = none ↔
      ∀ dimension limit, limits.binding dimension = some limit →
        usage.amount dimension + reserved.amount dimension + requested.amount dimension ≤
          limit := by
  refine ⟨fun passed dimension limit binds =>
    le_of_checkLimits passed dimension limit binds (exact dimension limit binds), ?_⟩
  rw [forall_binding_iff] at exact
  rw [forall_binding_iff fun _ limit usage reserved requested =>
    usage + reserved + requested ≤ limit, checkLimitsFirstDenial, Option.or_eq_none_iff,
    findSome?_eq_none_iff]
  rintro ⟨dollars, counts⟩
  refine ⟨(checkDecimal_eq_none_iff exact.1).mpr dollars, fun row listed => ?_⟩
  exact (checkInteger_eq_none_iff fun limit binds => (totalExact_counts_iff
    (counted_of_row listed)).mp (exact.2 row listed limit binds)).mpr (counts row listed)

theorem amount_addAssign_of_le (binds : limits.binding dimension = some limit)
    (sums : SumsExact dimension limit (usage.amount dimension) (reserved.amount dimension)
      (requested.amount dimension))
    (le : usage.amount dimension + reserved.amount dimension + requested.amount dimension ≤ limit) :
    (reserved.addAssign requested).amount dimension =
      reserved.amount dimension + requested.amount dimension := by
  have counted : ∀ {max : Nat} {maximum : Option (Bounded max)} {used held asked : Bounded max},
      binding.count maximum = some limit →
        (used.value : Int) + held.value + asked.value ≤ limit →
        ((held.saturatingAdd asked).value : Int) = held.value + asked.value := by
    intro max maximum used held asked binds le
    obtain ⟨bound, _, rfl⟩ := Option.map_eq_some_iff.mp binds
    have inRange := bound.le_max
    exact cast_saturatingAdd (by omega)
  cases dimension with
  | usd => exact addOrMax_of_fits (sums.2 rfl)
  | _ => exact counted binds le

variable {state : ResourceState}

theorem checkLimits_of_evaluateCascade
    {accounts : List ResourceAccount} {before after : List BudgetWarning}
    (passed : evaluateCascade state requested accounts before = .ok after)
    (member : account ∈ accounts) (limited : state.limits.get account = some limits) :
    checkLimitsFirstDenial account limits (state.usageFor account) (state.reservedFor account)
      requested = none := by
  induction accounts generalizing before with
  | nil => cases member
  | cons _ _ ih =>
    unfold evaluateCascade at passed
    rcases mem_cons.mp member with rfl | later
    · rw [limited] at passed
      dsimp only at passed
      split at passed
      next allowed =>
        unfold evaluateCascadeForAccount at allowed
        dsimp only at allowed
        split at allowed
        · cases allowed
        · cases allowed
        · assumption
      · cases passed
      · cases passed
    · split at passed
      · exact ih passed later
      split at passed
      · exact ih passed later
      · cases passed
      · cases passed

/-! ## Reservations -/

/-- What an account has used in the window around `now`. -/
def ResourceState.currentUsage (state : ResourceState) (account : ResourceAccount)
    (now : DateTime) : ResourceTally :=
  ((state.parts account).advance now).usage.getD .zero

/-- The usage and the holds of the account in a state are within its limits, and the holds
have grown by exactly the request. -/
def WithinLimits (state after : ResourceState) (requested : ResourceTally)
    (account : ResourceAccount) (dimension : ResourceDimension) (limit : Int) : Prop :=
  (after.usageFor account).amount dimension + (after.reservedFor account).amount dimension ≤ limit ∧
    (after.reservedFor account).amount dimension =
      (state.reservedFor account).amount dimension + requested.amount dimension

def NothingHeld (state after : ResourceState) : Prop :=
  after.reservations = state.reservations ∧
    ∀ account, after.reservedFor account = state.reservedFor account

theorem nothingHeld_rolledOver (state : ResourceState) (scope : ResourceScope) (now : DateTime) :
    NothingHeld state (state.rolledOver (cascade scope) now) := by
  refine ⟨state.reservations_rolledOver _ now, fun account => ?_⟩
  rw [← parts_reserved, state.parts_rolledOver (cascade_nodup scope)]
  split
  · rw [advance_reserved]
    rfl
  · rfl

variable {scope : ResourceScope}

theorem ResourceState.rolledOver_entries (state : ResourceState) (now : DateTime)
    (member : account ∈ cascade scope) :
    (state.rolledOver (cascade scope) now).limits.get account = state.limits.get account ∧
      (state.rolledOver (cascade scope) now).usageFor account = state.currentUsage account now ∧
      (state.rolledOver (cascade scope) now).reservedFor account = state.reservedFor account := by
  have rolled := state.parts_rolledOver (cascade_nodup scope) now account
  rw [if_pos member] at rolled
  refine ⟨(congrArg AccountParts.limits rolled).trans ?_, ?_, ?_⟩
  · rw [advance_limits]
    rfl
  · rw [← parts_usage, rolled]
    rfl
  · rw [← parts_reserved, rolled, advance_reserved]
    rfl

theorem usageFor_granted (state : ResourceState)
    (estimate : ResourceEstimate) (id : ResourceReservationId) (now : DateTime)
    (member : account ∈ cascade scope) :
    (state.granted scope estimate id now).usageFor account = state.currentUsage account now := by
  rw [← parts_usage, state.parts_granted, if_pos member]
  rfl

theorem withinLimits_of_granted {warnings : List BudgetWarning}
    (passed : evaluateCascade (state.rolledOver (cascade scope) now)
      (.fromEstimate estimate) (cascade scope) [] = .ok warnings)
    (member : account ∈ cascade scope)
    (limited : (state.granted scope estimate id now).limits.get account = some limits)
    (binds : limits.binding dimension = some limit)
    (sums : SumsExact dimension limit ((state.currentUsage account now).amount dimension)
      ((state.reservedFor account).amount dimension) ((fromEstimate estimate).amount dimension)) :
    WithinLimits state (state.granted scope estimate id now) (.fromEstimate estimate) account
      dimension limit := by
  have after := state.parts_granted scope estimate id now account
  rw [if_pos member] at after
  obtain ⟨sameLimits, rolledUsage, rolledReserved⟩ := state.rolledOver_entries now member
  have rolledLimits : (state.rolledOver (cascade scope) now).limits.get account = some limits := by
    have kept := congrArg AccountParts.limits after
    rw [AccountParts.addHold, advance_limits] at kept
    rw [sameLimits, ← limited]
    exact kept.symm
  have checked := checkLimits_of_evaluateCascade passed member rolledLimits
  rw [rolledUsage, rolledReserved] at checked
  have le := le_of_checkLimits checked _ _ binds sums.1
  have added := amount_addAssign_of_le binds sums le
  have afterReserved : (state.granted scope estimate id now).reservedFor account =
      (state.reservedFor account).addAssign (.fromEstimate estimate) := by
    rw [← parts_reserved, after]
    simp [AccountParts.addHold]
  rw [WithinLimits, usageFor_granted state estimate id now member, afterReserved, added]
  exact ⟨by omega, rfl⟩

theorem sumsExact_of_withinLimits (member : account ∈ cascade scope)
    (counted : dimension ≠ .usd) (binds : limits.binding dimension = some limit)
    (within : WithinLimits state (state.granted scope estimate id now) (.fromEstimate estimate)
      account dimension limit) :
    SumsExact dimension limit ((state.currentUsage account now).amount dimension)
      ((state.reservedFor account).amount dimension)
      ((fromEstimate estimate).amount dimension) := by
  have inRange : limit ≤ 2 ^ 64 - 1 := binding_le_max counted binds
  obtain ⟨le, exactly⟩ := within
  rw [usageFor_granted state estimate id now member, exactly] at le
  exact ⟨(totalExact_counts_iff counted).mpr (.inr (by omega)), (absurd · counted)⟩

/-- A reservation that is granted where the sums of its checks are exact keeps every limited
account of its cascade within its limits, counts only there, and one that is denied or asks
for approval holds nothing. -/
theorem governor.grants_within_limits {state after : ResourceState} {scope : ResourceScope}
    {estimate : ResourceEstimate} {id : ResourceReservationId} {now : DateTime}
    {answer : Except ResourceError ReservationOutcome}
    (reserve : reserveWithOutcomeInState state scope estimate id now = (answer, after)) :
    (∀ outcome, answer = .ok outcome → ∀ account ∈ cascade scope,
        ∀ limits, after.limits.get account = some limits →
        ∀ dimension limit, limits.binding dimension = some limit →
          let sumsExact := SumsExact dimension limit
            ((state.currentUsage account now).amount dimension)
            ((state.reservedFor account).amount dimension)
            ((fromEstimate estimate).amount dimension)
          let withinLimits :=
            WithinLimits state after (.fromEstimate estimate) account dimension limit
          (sumsExact → withinLimits) ∧ (dimension ≠ .usd → withinLimits → sumsExact)) ∧
      (∀ denial warnings, answer = .error (.limitExceeded denial warnings) →
        NothingHeld state after) ∧
      ∀ needed warnings, answer = .error (.requiresApproval needed warnings) →
        NothingHeld state after := by
  rcases state.reserve_cases scope estimate id now with
    ⟨_, refused⟩ | ⟨_, _, denied⟩ | ⟨_, _, _, passed, granted⟩
  · cases reserve.symm.trans refused
    exact ⟨fun _ impossible => (nomatch impossible), fun _ _ _ => ⟨rfl, fun _ => rfl⟩,
      fun _ _ _ => ⟨rfl, fun _ => rfl⟩⟩
  · cases reserve.symm.trans denied
    exact ⟨fun _ impossible => (nomatch impossible), fun _ _ _ => nothingHeld_rolledOver _ _ _,
      fun _ _ _ => nothingHeld_rolledOver _ _ _⟩
  · cases reserve.symm.trans granted
    refine ⟨fun _ _ account member limits limited dimension limit binds => ⟨?_, ?_⟩,
      fun _ _ impossible => (nomatch impossible), fun _ _ impossible => (nomatch impossible)⟩
    · exact withinLimits_of_granted passed member limited binds
    · exact fun counted => sumsExact_of_withinLimits member counted binds

/-! ## Denials and approvals -/

/-- The platform compares thresholds and utilizations as exact rational numbers. -/
structure Platform.Exact (ratio : platform.F64 → WithTop ℚ) : Prop where
  lt_one : ∀ number, platform.lt number platform.one = true ↔ ratio number < 1
  ge_one : ∀ number, platform.ge number platform.one = true ↔ 1 ≤ ratio number
  ge_counts : ∀ (total limit : Nat) threshold, 0 < limit →
    (platform.ge (platform.div (platform.ofU64 total) (platform.ofU64 limit)) threshold = true ↔
      ratio threshold ≤ ((total / limit : ℚ) : WithTop ℚ))
  ge_dollars : ∀ (total limit : Decimal) threshold, 0 < limit.units →
    (platform.ge (platform.div (platform.decimalToF64 total) (platform.decimalToF64 limit))
      threshold = true ↔ ratio threshold ≤ ((total.units / limit.units : ℚ) : WithTop ℚ))

/-- The utilization of a limit reaches the pausing threshold. -/
def Paused (ratio : platform.F64 → WithTop ℚ) (thresholds : BudgetThresholds)
    (limit total : Int) : Prop :=
  ratio thresholds.pauseAt < 1 ∧ ratio thresholds.pauseAt ≤ ((total / limit : ℚ) : WithTop ℚ)

/-- An intervention that asks for no approval, or none. -/
def Silent (found : Option ThresholdIntervention) : Prop :=
  ∀ needed, found ≠ some (.approval needed)

variable {ratio : platform.F64 → WithTop ℚ} {periodEnd : Option DateTime}

theorem silent_intervene_iff {limit used held asked : ResourceValue} {utilization : platform.F64}
    {thresholds : BudgetThresholds} :
    Silent (intervene account dimension limit used held asked utilization thresholds periodEnd) ↔
      ¬ (platform.lt thresholds.pauseAt platform.one = true ∧
        platform.ge utilization thresholds.pauseAt = true) := by
  unfold Silent intervene
  rw [← Bool.and_eq_true]
  split
  next paused => simp [paused]
  next running => split <;> simp [running]

theorem silent_absorbed_iff (found : List (Option ThresholdIntervention))
    (start : List BudgetWarning × Option ResourceApprovalNeeded) :
    (found.reduceOption.foldl absorb start).2 = none ↔
      start.2 = none ∧ ∀ intervention ∈ found, Silent intervention := by
  induction found generalizing start with
  | nil => simp
  | cons intervention _ ih =>
    rw [forall_mem_cons]
    cases intervention with
    | none => simp [ih, Silent]
    | some intervention =>
      rw [reduceOption_cons_of_some, foldl_cons, ih, ← and_assoc]
      refine and_congr_left' ?_
      cases intervention <;> simp [absorb, Silent]

theorem silent_thresholdDecimal_iff (platformExact : platform.Exact ratio)
    (exact : ∀ limit, limits.binding .usd = some limit →
      TotalExact .usd limit usage.usd.units reserved.usd.units requested.usd.units) :
    Silent (thresholdDecimal account dimension limits.maxUsd usage.usd reserved.usd requested.usd
        limits.thresholds periodEnd) ↔
      ∀ limit, limits.binding .usd = some limit → ¬ Paused ratio limits.thresholds limit
        (usage.usd.units + reserved.usd.units + requested.usd.units) := by
  unfold thresholdDecimal
  cases filtered : limits.maxUsd.filter fun value => value.units > 0 with
  | none => simp [binding, filtered, Silent]
  | some bound =>
    have binds : limits.binding .usd = some bound.units := by
      rw [binding, filtered, Option.map_some]
    have positive : 0 < bound.units := by simpa using (Option.filter_eq_some_iff.mp filtered).2
    obtain ⟨subtotal, total⟩ := exact _ binds
    obtain ⟨_, added, firstUnits⟩ := checkedAdd_of_fits subtotal
    rw [← firstUnits] at total ⊢
    obtain ⟨_, addedAll, allUnits⟩ := checkedAdd_of_fits total
    simp only [added, addedAll, Option.bind_eq_bind, Option.bind_some, binds, Option.some.injEq,
      forall_eq']
    rw [silent_intervene_iff, platformExact.lt_one, platformExact.ge_dollars _ _ _ positive,
      allUnits]
    rfl

/-- A count that is cut at the largest one has reached every threshold, and so has the sum. -/
theorem silent_thresholdInteger_iff (platformExact : platform.Exact ratio) {row : IntegerRow} :
    Silent (thresholdInteger account limits.thresholds periodEnd row) ↔
      ∀ limit, binding.count row.limit = some limit → ¬ Paused ratio limits.thresholds limit
        (row.usage.value + row.reserved.value + row.requested.value) := by
  unfold thresholdInteger
  cases filtered : row.limit.filter fun value => value.value > 0 with
  | none =>
    have free : binding.count row.limit = none := by rw [binding.count, filtered, Option.map_none]
    simp [free, Silent]
  | some bound =>
    have binds : binding.count row.limit = some (bound.value : Int) := by
      rw [binding.count, filtered, Option.map_some]
    have positive : 0 < bound.value := by simpa using (Option.filter_eq_some_iff.mp filtered).2
    simp only [Option.bind_eq_bind, Option.bind_some, binds, Option.some.injEq, forall_eq']
    rw [silent_intervene_iff, platformExact.lt_one, platformExact.ge_counts _ _ _ positive]
    refine not_congr (and_congr_right fun below => ?_)
    have reached : ∀ total : Nat, bound.value ≤ total →
        ratio limits.thresholds.pauseAt ≤ ((total / bound.value : ℚ) : WithTop ℚ) := by
      intro total large
      refine below.le.trans ?_
      have quotient : (1 : ℚ) ≤ total / bound.value :=
        (one_le_div (by exact_mod_cast positive)).mpr (by exact_mod_cast large)
      exact_mod_cast quotient
    have cut : ((row.usage.saturatingAdd row.reserved).saturatingAdd row.requested).value =
        min (row.usage.value + row.reserved.value + row.requested.value) (2 ^ 64 - 1) := by
      simp only [saturatingAdd]
      omega
    rw [cut]
    rcases Nat.le_total (row.usage.value + row.reserved.value + row.requested.value) (2 ^ 64 - 1)
      with small | large
    · rw [min_eq_left small]
      push_cast
      rfl
    · rw [min_eq_right large]
      have all := reached _ (bound.le_max.trans large)
      push_cast at all ⊢
      exact iff_of_true (by exact_mod_cast reached _ bound.le_max) all

theorem checkThresholds_eq_none_iff (platformExact : platform.Exact ratio)
    (exact : ∀ dimension limit, limits.binding dimension = some limit →
      TotalExact dimension limit (usage.amount dimension) (reserved.amount dimension)
        (requested.amount dimension)) :
    (checkThresholdsAllInterventions account limits usage reserved requested periodEnd).2 = none ↔
      ∀ dimension limit, limits.binding dimension = some limit →
        ¬ Paused ratio limits.thresholds limit
          (usage.amount dimension + reserved.amount dimension + requested.amount dimension) := by
  unfold checkThresholdsAllInterventions
  split
  next off =>
    have disabled := (platformExact.ge_one _).mp (Bool.and_eq_true_iff.mp off).1
    exact iff_of_true rfl fun _ _ _ paused => absurd paused.1 (not_lt.mpr disabled)
  · rw [forall_binding_iff] at exact
    rw [silent_absorbed_iff, forall_binding_iff fun _ limit usage reserved requested =>
      ¬ Paused ratio limits.thresholds limit (usage + reserved + requested), forall_mem_cons,
      silent_thresholdDecimal_iff platformExact exact.1, forall_mem_map]
    simp only [true_and, silent_thresholdInteger_iff platformExact]

namespace ResourceState

/-- What the account has used and holds in a dimension, with the request. -/
def totalWith (state : ResourceState) (requested : ResourceTally) (now : DateTime)
    (account : ResourceAccount) (dimension : ResourceDimension) : Int :=
  (state.currentUsage account now).amount dimension +
    (state.reservedFor account).amount dimension + requested.amount dimension

/-- The account has a limit that its usage, its holds and the request together are above. -/
def Exceeds (state : ResourceState) (requested : ResourceTally) (now : DateTime)
    (account : ResourceAccount) : Prop :=
  ∃ limits dimension limit, state.limits.get account = some limits ∧
    limits.binding dimension = some limit ∧ limit < state.totalWith requested now account dimension

/-- The account has a limit whose utilization with the request reaches the pausing threshold. -/
def Pauses (ratio : platform.F64 → WithTop ℚ) (state : ResourceState) (requested : ResourceTally)
    (now : DateTime) (account : ResourceAccount) : Prop :=
  ∃ limits dimension limit, state.limits.get account = some limits ∧
    limits.binding dimension = some limit ∧
    Paused ratio limits.thresholds limit (state.totalWith requested now account dimension)

end ResourceState

/-- Some account denies, and no account before it asks. -/
def DeniesFirst (denies asks : ResourceAccount → Prop) (accounts : List ResourceAccount) : Prop :=
  ∃ before account rest, accounts = before ++ account :: rest ∧ denies account ∧
    ∀ other ∈ before, ¬ asks other

variable {denies asks : ResourceAccount → Prop} {accounts rest : List ResourceAccount}

omit platform in
theorem deniesFirst_cons : DeniesFirst denies asks (account :: rest) ↔
    denies account ∨ ¬ asks account ∧ DeniesFirst denies asks rest := by
  constructor
  · rintro ⟨before, denier, after, split, denied, quiet⟩
    cases before with
    | nil =>
      obtain ⟨rfl, rfl⟩ := cons.inj split
      exact .inl denied
    | cons _ before =>
      obtain ⟨rfl, rfl⟩ := cons.inj split
      exact .inr ⟨quiet _ mem_cons_self, before, denier, after, rfl, denied,
        fun other member => quiet other (mem_cons_of_mem _ member)⟩
  · rintro (denied | ⟨silent, before, denier, after, rfl, denied, quiet⟩)
    · exact ⟨[], account, rest, rfl, denied, by simp⟩
    · exact ⟨account :: before, denier, after, rfl, denied, forall_mem_cons.mpr ⟨silent, quiet⟩⟩

/-- The loop denies where the checks of its accounts deny and ask as the two predicates say. -/
theorem evaluateCascade_denies_iff
    (unlimited : ∀ account ∈ accounts, state.limits.get account = none →
      ¬ denies account ∧ ¬ asks account)
    (limited : ∀ account ∈ accounts, ∀ limits, state.limits.get account = some limits →
      (checkLimitsFirstDenial account limits (state.usageFor account) (state.reservedFor account)
        requested = none ↔ ¬ denies account) ∧
      ((checkThresholdsAllInterventions account limits (state.usageFor account)
        (state.reservedFor account) requested (state.periodAnchors.get account)).2 = none ↔
          ¬ asks account))
    (warnings : List BudgetWarning) :
    (∃ denial found, evaluateCascade state requested accounts warnings =
      .error (.limitExceeded denial found)) ↔ DeniesFirst denies asks accounts := by
  induction accounts generalizing warnings with
  | nil => simp [evaluateCascade, DeniesFirst]
  | cons account rest ih =>
    rw [forall_mem_cons] at unlimited limited
    have ih := ih unlimited.2 limited.2
    rw [deniesFirst_cons]
    unfold evaluateCascade
    cases stored : state.limits.get account with
    | none => simp [ih, unlimited.1 stored]
    | some limits =>
      have agrees := limited.1 limits stored
      revert agrees
      dsimp only [evaluateCascadeForAccount]
      generalize checkLimitsFirstDenial account limits _ _ _ = denied
      generalize checkThresholdsAllInterventions account limits _ _ _ _ = found
      rintro ⟨denial, approval⟩
      obtain ⟨found, asked⟩ := found
      cases denied with
      | some =>
        have denies : denies account := not_not.mp fun silent => nomatch denial.mpr silent
        simp [denies]
      | none =>
        have passes := denial.mp rfl
        cases asked with
        | none => simp [ih, passes, approval.mp rfl]
        | some =>
          have stops : asks account := not_not.mp fun silent => nomatch approval.mpr silent
          simp [passes, stops]

/-- A valid request under a new id, whose sums are exact, is turned down as exceeding a limit
exactly when an account of its cascade that exceeds a limit comes before every other account
that the request takes to its pausing threshold. -/
theorem governor.denial_wins_iff (platformExact : platform.Exact ratio) (state : ResourceState)
    (scope : ResourceScope) (estimate : ResourceEstimate) (id : ResourceReservationId)
    (now : DateTime) (valid : ∀ usd ∈ estimate.usd, 0 ≤ usd.units)
    (fresh : state.reservations.get id = none)
    (exact : ∀ account ∈ cascade scope, ∀ limits, state.limits.get account = some limits →
      ∀ dimension limit, limits.binding dimension = some limit →
        TotalExact dimension limit ((state.currentUsage account now).amount dimension)
          ((state.reservedFor account).amount dimension)
          ((fromEstimate estimate).amount dimension)) :
    (∃ denial warnings, (reserveWithOutcomeInState state scope estimate id now).1 =
      .error (.limitExceeded denial warnings)) ↔
    DeniesFirst (state.Exceeds (fromEstimate estimate) now)
      (state.Pauses ratio (fromEstimate estimate) now) (cascade scope) := by
  have valid : validateEstimate estimate = .ok () := by
    unfold validateEstimate
    cases stated : estimate.usd with
    | none => rfl
    | some usd => exact if_neg (Int.not_lt.mpr (valid usd stated))
  have cascades : (∃ denial found, evaluateCascade (state.rolledOver (cascade scope) now)
      (fromEstimate estimate) (cascade scope) [] = .error (.limitExceeded denial found)) ↔
      DeniesFirst (state.Exceeds (fromEstimate estimate) now)
        (state.Pauses ratio (fromEstimate estimate) now) (cascade scope) := by
    refine evaluateCascade_denies_iff (fun account member free => ?_)
      (fun account member limits limited => ?_) []
    · rw [(state.rolledOver_entries now member).1] at free
      simp [Exceeds, Pauses, free]
    · obtain ⟨sameLimits, sameUsage, sameHolds⟩ := state.rolledOver_entries now member
      rw [sameLimits] at limited
      have sums := exact account member limits limited
      rw [sameUsage, sameHolds, checkLimits_eq_none_iff sums,
        checkThresholds_eq_none_iff platformExact sums]
      simp [Exceeds, Pauses, totalWith, limited]
  rw [← cascades]
  unfold reserveWithOutcomeInState
  simp only [valid, Table.containsKey, fresh, rolledOver]
  generalize evaluateCascade _ _ _ _ = verdict
  cases verdict <;> simp

end

/-! ## A limit of five tokens and one of the largest count -/

namespace governor

local instance : Platform := .exactUtc

/-- A limit for the tenant, and a first request that uses it up but for the rest. -/
def limitedTo (limit used : U64) : List (ResourceOp × DateTime) :=
  [(.setLimit sampleTenant { maxInputTokens := some limit }, 0), (askTokens 1 used, 0),
    (.reconcile ⟨1⟩ { inputTokens := used }, 0)]

def fiveTokens : ResourceState := (limitedTo 5 3).foldl next .empty

def allTokens : ResourceState := (limitedTo max max).foldl next .empty

def askMore (tokens : U64) (state : ResourceState) :
    Except ResourceError ReservationOutcome × ResourceState :=
  reserveWithOutcomeInState state sampleScope { inputTokens := some tokens } ⟨2⟩ 0

theorem two_of_five_are_within : (askMore 2 fiveTokens).1.isOk = true ∧
      WithinLimits fiveTokens (askMore 2 fiveTokens).2
        (.fromEstimate { inputTokens := some 2 }) sampleTenant .inputTokens 5 := by
  have granted : (askMore 2 fiveTokens).1.isOk = true := by decide +kernel
  have bound : ((askMore 2 fiveTokens).2.limits.get sampleTenant).map
      (fun limits => limits.binding .inputTokens) = some (some 5) := by decide +kernel
  have reserve : reserveWithOutcomeInState fiveTokens sampleScope
      { inputTokens := some 2 } ⟨2⟩ 0 =
        ((askMore 2 fiveTokens).1, (askMore 2 fiveTokens).2) := rfl
  refine ⟨granted, ?_⟩
  obtain ⟨limits, limited, binds⟩ := Option.map_eq_some_iff.mp bound
  cases answer : (askMore 2 fiveTokens).1 with
  | error =>
    rw [answer] at granted
    cases granted
  | ok outcome =>
    exact ((grants_within_limits reserve).1 outcome answer sampleTenant (by decide +kernel)
      limits limited .inputTokens 5 binds).1 ⟨.inl (by decide), nofun⟩

/-- The sum of a check stops at the largest count, so that a limit of that count never
denies: one more token is granted to an account that has used them all. -/
theorem largest_limit_is_over_granted : governor.Reachable System.anyStep allTokens ∧
      (askMore 1 allTokens).1.isOk = true ∧
      sampleTenant ∈ cascade sampleScope ∧
      ((askMore 1 allTokens).2.limits.get sampleTenant).map
        (fun limits => limits.binding .inputTokens) = some (some (2 ^ 64 - 1)) ∧
      ¬ WithinLimits allTokens (askMore 1 allTokens).2
        (.fromEstimate { inputTokens := some 1 }) sampleTenant .inputTokens
        (2 ^ 64 - 1) := by
  refine ⟨reachable_foldl (System.allowedAlong_anyStep _ _ _), by decide +kernel,
    by decide +kernel, by decide +kernel, ?_⟩
  unfold WithinLimits
  decide +kernel

/-- The tenant pauses at half of its ten tokens and the user has a limit of five. -/
def pausingTenant : ResourceState :=
  empty.next
    (.setLimit sampleTenant
      { maxInputTokens := some 10, thresholds := ⟨.finite (1 / 2), .finite (1 / 2)⟩ }, 0) |>.next
    (.setLimit (.user ⟨"tenant"⟩ ⟨"user"⟩) { maxInputTokens := some 5 }, 0)

/-- A number of the exact platform as a rational or the top. -/
def exactRatio : ExactF64 → WithTop ℚ
  | .finite value => value
  | .infinite => ⊤

theorem exactUtc_exact : Platform.Exact exactRatio where
  lt_one
    | .finite _ => decide_eq_true_iff.trans WithTop.coe_lt_one.symm
    | .infinite => iff_of_false nofun (by simp [exactRatio])
  ge_one
    | .finite _ => decide_eq_true_iff.trans WithTop.one_le_coe.symm
    | .infinite => iff_of_true rfl le_top
  ge_counts
    | _, _, .finite _, _ => decide_eq_true_iff.trans WithTop.coe_le_coe.symm
    | _, _, .infinite, _ => iff_of_false nofun (by simp [exactRatio])
  ge_dollars
    | total, limit, .finite value, _ => by
      have scale : (10 : ℚ) ^ maxScale ≠ 0 := pow_ne_zero _ (by decide)
      change decide (total.units / 10 ^ maxScale / (limit.units / 10 ^ maxScale) ≥ value) = true ↔ _
      rw [div_div_div_cancel_right₀ scale, decide_eq_true_iff]
      exact WithTop.coe_le_coe.symm
    | _, _, .infinite, _ => iff_of_false nofun (by simp [exactRatio])

/-- The same limits with a tenant that pauses at nine tenths. -/
def patientTenant : ResourceState :=
  pausingTenant.next
    (.setLimit sampleTenant
      { maxInputTokens := some 10, thresholds := ⟨.finite (1 / 2), .finite (9 / 10)⟩ }, 0)

theorem patientTenant_limits {account : ResourceAccount} {limits : ResourceLimits}
    {dimension : ResourceDimension} {limit : Int} (member : account ∈ cascade sampleScope)
    (limited : patientTenant.limits.get account = some limits)
    (binds : limits.binding dimension = some limit) : dimension = .inputTokens ∧ limit ≤ 10 ∧
      (account = sampleTenant → limit = 10 ∧ limits.thresholds.pauseAt = .finite (9 / 10)) := by
  have both : account = sampleTenant ∨ account = .user ⟨"tenant"⟩ ⟨"user"⟩ := by
    simpa [cascade, sampleScope, sampleTenant] using member
  rcases both with rfl | rfl <;> obtain rfl := Option.some.inj limited.symm <;>
    cases dimension <;> cases binds
  · exact ⟨rfl, by decide, fun _ => ⟨rfl, rfl⟩⟩
  · exact ⟨rfl, by decide, by simp [sampleTenant]⟩

theorem denial_of_patientTenant : ∃ denial warnings, (askMore 6 patientTenant).1 =
    .error (.limitExceeded denial warnings) := by
  refine (denial_wins_iff exactUtc_exact patientTenant sampleScope { inputTokens := some 6 } ⟨2⟩ 0
    nofun rfl ?_).mpr ⟨[sampleTenant], .user ⟨"tenant"⟩ ⟨"user"⟩, [], rfl, ?_, ?_⟩
  · intro account member limits limited dimension limit binds
    obtain ⟨rfl, small, _⟩ := patientTenant_limits member limited binds
    exact .inl (by omega)
  · exact ⟨_, .inputTokens, 5, rfl, rfl, by decide +kernel⟩
  · rintro account member ⟨limits, dimension, limit, limited, binds, below, reached⟩
    obtain rfl := mem_singleton.mp member
    obtain ⟨rfl, _, same⟩ := patientTenant_limits mem_cons_self limited binds
    obtain ⟨rfl, late⟩ := same rfl
    have total : patientTenant.totalWith (.fromEstimate { inputTokens := some 6 }) 0 sampleTenant
        .inputTokens = 6 := by decide +kernel
    rw [late, total] at reached
    have tenths := WithTop.coe_le_coe.mp reached
    norm_num at tenths

/-- The tenant comes first in the cascade, so that approval is asked for six tokens although
the limit of the user rules them out. -/
theorem approval_hides_denial : (∃ account ∈ cascade sampleScope,
      pausingTenant.Exceeds (.fromEstimate { inputTokens := some 6 }) 0 account) ∧
      (match (askMore 6 pausingTenant).1 with
        | .error (.requiresApproval needed _) => decide (needed.account = sampleTenant)
        | _ => false) = true := by
  refine ⟨⟨.user ⟨"tenant"⟩ ⟨"user"⟩, by decide, ?_⟩, ?_⟩
  · exact ⟨_, .inputTokens, 5, rfl, rfl, by decide +kernel⟩
  · decide +kernel

end governor

end Ironclaw.Resources
