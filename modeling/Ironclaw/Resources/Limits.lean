import Ironclaw.HostApi.Scope
import Ironclaw.Resources.Period
import Ironclaw.Resources.Tally

/-!
# Limits and the checks against them

A reservation is checked against the limits of every account of its cascade.  A limit of
zero, like a missing one, does not bind.  The checks see what an account has used, what
it holds for running work and what is asked for, and add the three with saturation.
-/

namespace Ironclaw.Resources

open HostApi Lib U64

inductive ResourceAccount where
  | tenant (tenantId : TenantId)
  | user (tenantId : TenantId) (userId : UserId)
  | project (tenantId : TenantId) (userId : UserId) (projectId : ProjectId)
  | agent (tenantId : TenantId) (userId : UserId) (projectId : Option ProjectId)
      (agentId : AgentId)
  | mission (tenantId : TenantId) (userId : UserId) (projectId : Option ProjectId)
      (missionId : MissionId)
  | thread (tenantId : TenantId) (userId : UserId) (projectId : Option ProjectId)
      (missionId : Option MissionId) (threadId : ThreadId)
  deriving DecidableEq

namespace ResourceAccount

/-- The accounts whose limits apply to a scope, from the broadest to the narrowest. -/
def cascade (scope : ResourceScope) : List ResourceAccount :=
  [.tenant scope.tenantId, .user scope.tenantId scope.userId] ++
    (scope.projectId.map (.project scope.tenantId scope.userId)).toList ++
    (scope.agentId.map (.agent scope.tenantId scope.userId scope.projectId)).toList ++
    (scope.missionId.map (.mission scope.tenantId scope.userId scope.projectId)).toList ++
    (scope.threadId.map
      (.thread scope.tenantId scope.userId scope.projectId scope.missionId)).toList

theorem cascade_nodup (scope : ResourceScope) : (cascade scope).Nodup := by
  obtain ⟨_, _, agentId, projectId, missionId, threadId, _⟩ := scope
  cases agentId <;> cases projectId <;> cases missionId <;> cases threadId <;> simp [cascade]

end ResourceAccount

inductive ResourceValue where
  | decimal (value : Decimal)
  | integer (value : U64)

structure ResourceDenial where
  account : ResourceAccount
  dimension : ResourceDimension
  limit : ResourceValue
  currentUsage : ResourceValue
  activeReserved : ResourceValue
  requested : ResourceValue

variable [platform : Platform]

structure ResourceLimits where
  maxUsd : Option Decimal := none
  maxInputTokens : Option U64 := none
  maxOutputTokens : Option U64 := none
  maxWallClockMs : Option U64 := none
  maxOutputBytes : Option U64 := none
  maxNetworkEgressBytes : Option U64 := none
  maxProcessCount : Option U32 := none
  maxConcurrencySlots : Option U32 := none
  period : BudgetPeriod := .perInvocation
  thresholds : BudgetThresholds := .disabled

structure ResourceApprovalNeeded where
  account : ResourceAccount
  dimension : ResourceDimension
  limit : ResourceValue
  currentUsage : ResourceValue
  activeReserved : ResourceValue
  requested : ResourceValue
  utilization : platform.F64
  periodEnd : Option DateTime

structure BudgetWarning where
  account : ResourceAccount
  dimension : ResourceDimension
  utilization : platform.F64
  limit : ResourceValue
  periodEnd : Option DateTime

/-! ## Hard limits -/

variable (account : ResourceAccount) (dimension : ResourceDimension)

def checkDecimal
    (limit : Option Decimal) (usage reserved requested : Decimal) : Option ResourceDenial :=
  match limit.filter fun value => value.units > 0 with
  | none => none
  | some limit =>
    let exceeds :=
      match (usage.checkedAdd reserved).bind fun subtotal => subtotal.checkedAdd requested with
      | some total => decide (total.units > limit.units)
      | none => true
    if exceeds then
      some ⟨account, dimension, .decimal limit, .decimal usage, .decimal reserved,
        .decimal requested⟩
    else none

/-- One counted dimension of a check. -/
structure IntegerRow where
  dimension : ResourceDimension
  limit : Option U64
  usage : U64
  reserved : U64
  requested : U64

variable (limits : ResourceLimits) (usage reserved requested : ResourceTally)

def integerRows : List IntegerRow :=
  [⟨.inputTokens, limits.maxInputTokens, usage.inputTokens, reserved.inputTokens,
      requested.inputTokens⟩,
    ⟨.outputTokens, limits.maxOutputTokens, usage.outputTokens, reserved.outputTokens,
      requested.outputTokens⟩,
    ⟨.wallClockMs, limits.maxWallClockMs, usage.wallClockMs, reserved.wallClockMs,
      requested.wallClockMs⟩,
    ⟨.outputBytes, limits.maxOutputBytes, usage.outputBytes, reserved.outputBytes,
      requested.outputBytes⟩,
    ⟨.networkEgressBytes, limits.maxNetworkEgressBytes, usage.networkEgressBytes,
      reserved.networkEgressBytes, requested.networkEgressBytes⟩,
    ⟨.processCount, limits.maxProcessCount.map fromU32, fromU32 usage.processCount,
      fromU32 reserved.processCount, fromU32 requested.processCount⟩,
    ⟨.concurrencySlots, limits.maxConcurrencySlots.map fromU32,
      fromU32 usage.concurrencySlots, fromU32 reserved.concurrencySlots,
      fromU32 requested.concurrencySlots⟩]

def checkInteger (row : IntegerRow) : Option ResourceDenial :=
  match row.limit.filter fun value => value.value > 0 with
  | none => none
  | some limit =>
    if ((row.usage.saturatingAdd row.reserved).saturatingAdd row.requested).value >
        limit.value then
      some ⟨account, row.dimension, .integer limit, .integer row.usage, .integer row.reserved,
        .integer row.requested⟩
    else none

def checkLimitsFirstDenial : Option ResourceDenial :=
  (checkDecimal account .usd limits.maxUsd usage.usd reserved.usd requested.usd).or
    ((integerRows limits usage reserved requested).findSome? (checkInteger account))

/-! ## Thresholds -/

inductive ThresholdIntervention where
  | warning (warning : BudgetWarning)
  | approval (needed : ResourceApprovalNeeded)

/-- What crossing a threshold calls for at a utilization. -/
def intervene (limit usage reserved requested : ResourceValue) (utilization : platform.F64)
    (thresholds : BudgetThresholds) (periodEnd : Option DateTime) : Option ThresholdIntervention :=
  if platform.lt thresholds.pauseAt platform.one && platform.ge utilization thresholds.pauseAt then
    some (.approval ⟨account, dimension, limit, usage, reserved, requested, utilization, periodEnd⟩)
  else if platform.lt thresholds.warnAt platform.one &&
      platform.ge utilization thresholds.warnAt then
    some (.warning ⟨account, dimension, utilization, limit, periodEnd⟩)
  else none

def thresholdDecimal
    (limit : Option Decimal) (usage reserved requested : Decimal) (thresholds : BudgetThresholds)
    (periodEnd : Option DateTime) : Option ThresholdIntervention := do
  let limit ← limit.filter fun value => value.units > 0
  let subtotal ← usage.checkedAdd reserved
  let total ← subtotal.checkedAdd requested
  let utilization := platform.div (platform.decimalToF64 total) (platform.decimalToF64 limit)
  intervene account dimension (.decimal limit) (.decimal usage) (.decimal reserved)
    (.decimal requested) utilization thresholds periodEnd

def thresholdInteger (thresholds : BudgetThresholds)
    (periodEnd : Option DateTime) (row : IntegerRow) : Option ThresholdIntervention := do
  let limit ← row.limit.filter fun value => value.value > 0
  let total := (row.usage.saturatingAdd row.reserved).saturatingAdd row.requested
  let utilization := platform.div (platform.ofU64 total.value) (platform.ofU64 limit.value)
  intervene account row.dimension (.integer limit) (.integer row.usage) (.integer row.reserved)
    (.integer row.requested) utilization thresholds periodEnd

/-- Record an intervention: an approval counts as a warning too, and the first is kept. -/
def absorb (found : List BudgetWarning × Option ResourceApprovalNeeded) :
    ThresholdIntervention → List BudgetWarning × Option ResourceApprovalNeeded
  | .warning warning => (found.1 ++ [warning], found.2)
  | .approval needed =>
    (found.1 ++ [⟨needed.account, needed.dimension, needed.utilization, needed.limit,
      needed.periodEnd⟩], found.2.or (some needed))

/-- Every warning of an account and the first approval it needs. -/
def checkThresholdsAllInterventions (periodEnd : Option DateTime) :
    List BudgetWarning × Option ResourceApprovalNeeded :=
  if platform.ge limits.thresholds.pauseAt platform.one &&
      platform.ge limits.thresholds.warnAt platform.one then
    ([], none)
  else
    let dollars := thresholdDecimal account .usd limits.maxUsd usage.usd reserved.usd
      requested.usd limits.thresholds periodEnd
    let counts := (integerRows limits usage reserved requested).map
      (thresholdInteger account limits.thresholds periodEnd)
    (dollars :: counts).reduceOption.foldl absorb ([], none)

inductive CascadeOutcome where
  | allow (warnings : List BudgetWarning)
  | requiresApproval (warnings : List BudgetWarning) (needed : ResourceApprovalNeeded)
  | deny (warnings : List BudgetWarning) (denial : ResourceDenial)

/-- One account of a cascade; a denial wins over an approval. -/
def evaluateCascadeForAccount (periodEnd : Option DateTime) : CascadeOutcome :=
  let (warnings, approval) :=
    checkThresholdsAllInterventions account limits usage reserved requested periodEnd
  match checkLimitsFirstDenial account limits usage reserved requested, approval with
  | some denial, _ => .deny warnings denial
  | none, some needed => .requiresApproval warnings needed
  | none, none => .allow warnings

end Ironclaw.Resources
