import Ironclaw.Lib.Table
import Ironclaw.Turns.Records

/-!
# Concurrency limiter

Counters of runs that hold a runner, per user and per origin class, and the cap
check a claim makes against them.
-/

namespace Ironclaw.Turns

open HostApi Lib

/-- `std::num::NonZeroU32`, read as a count. -/
abbrev NonZeroCount := { cap : Nat // 0 < cap }

inductive OriginClass where
  | trigger
  | conversation
  deriving DecidableEq

structure ConcurrencyLimits where
  maxConcurrentRunsPerUser : Option NonZeroCount
  maxConcurrentTriggerRuns : Option NonZeroCount
  maxConcurrentConversationRuns : Option NonZeroCount

def ConcurrencyLimits.anyCapEnabled (limits : ConcurrencyLimits) : Bool :=
  limits.maxConcurrentRunsPerUser.isSome || limits.maxConcurrentTriggerRuns.isSome ||
    limits.maxConcurrentConversationRuns.isSome

structure RunSlotInfo where
  tenantId : TenantId
  threadOwner : TurnThreadOwner
  actorUserId : UserId
  productContext : Option OriginClass

def slotInfoFor (record : RunRecord) : RunSlotInfo where
  tenantId := record.scope.tenantId
  threadOwner := record.scope.threadOwner
  actorUserId := record.actor.userId
  productContext := match record.productContext.map ProductTurnContext.origin with
    | some .scheduledTrigger => some .trigger
    | some .inbound | some .webUi => some .conversation
    | none => none

structure ConcurrencyLimiter where
  limits : Option ConcurrencyLimits
  runningByUser : Table (TenantId × UserId) Nat
  runningByOriginClass : Table (TenantId × OriginClass) Nat

namespace ConcurrencyLimiter

def withLimits (limits : ConcurrencyLimits) : ConcurrencyLimiter := ⟨some limits, .empty, .empty⟩

def userKeyFrom (info : RunSlotInfo) : Option (TenantId × UserId) :=
  match info.threadOwner with
  | .explicitUser ownerUserId => some (info.tenantId, ownerUserId)
  | .actorFallback => some (info.tenantId, info.actorUserId)
  | .ownerless => none

def originKeyFrom (info : RunSlotInfo) : Option (TenantId × OriginClass) :=
  info.productContext.map fun originClass => (info.tenantId, originClass)

section

variable {κ : Type} [DecidableEq κ] (counters : Table κ Nat)

/-- Add one to the counter of a key; runs without a key are not counted. -/
def enterSlot : Option κ → Table κ Nat
  | none => counters
  | some key => counters.insert key ((counters.get key).getD 0 + 1)

/-- Take one from the counter of a key, dropping a counter that reaches zero. -/
def leaveSlot : Option κ → Table κ Nat
  | none => counters
  | some key =>
    match counters.get key with
    | none => counters
    | some count => if count - 1 = 0 then counters.remove key else counters.insert key (count - 1)

def belowCap (key : κ) : Option NonZeroCount → Bool
  | none => true
  | some cap => (counters.get key).getD 0 < cap.val

end

variable (limiter : ConcurrencyLimiter)

def onEnterRunning (info : RunSlotInfo) : ConcurrencyLimiter :=
  { limiter with
    runningByUser := enterSlot limiter.runningByUser (userKeyFrom info)
    runningByOriginClass := enterSlot limiter.runningByOriginClass (originKeyFrom info) }

def onLeaveRunning (info : RunSlotInfo) : ConcurrencyLimiter :=
  { limiter with
    runningByUser := leaveSlot limiter.runningByUser (userKeyFrom info)
    runningByOriginClass := leaveSlot limiter.runningByOriginClass (originKeyFrom info) }

/-- The limiter of a loaded store.  Without a cap nothing is counted. -/
def rebuildFrom (limits : ConcurrencyLimits) (runningRecords : List RunSlotInfo) :
    ConcurrencyLimiter :=
  if limits.anyCapEnabled then runningRecords.foldl onEnterRunning (withLimits limits)
  else withLimits limits

def canClaim (info : RunSlotInfo) : Bool :=
  let userOk := match userKeyFrom info with
    | none => true
    | some key =>
      belowCap limiter.runningByUser key
        (limiter.limits.bind ConcurrencyLimits.maxConcurrentRunsPerUser)
  let originOk := match info.productContext with
    | none => true
    | some .trigger =>
      belowCap limiter.runningByOriginClass (info.tenantId, .trigger)
        (limiter.limits.bind ConcurrencyLimits.maxConcurrentTriggerRuns)
    | some .conversation =>
      belowCap limiter.runningByOriginClass (info.tenantId, .conversation)
        (limiter.limits.bind ConcurrencyLimits.maxConcurrentConversationRuns)
  userOk && originOk

end ConcurrencyLimiter

/-- The receipt of a status change, consumed by the slot accounting. -/
inductive StatusTransition where
  | enteredRunning
  | leftRunning
  | unchanged

/-- The receipt `RunStatusCell::set` returns. -/
def StatusTransition.between (source target : TurnStatus) : StatusTransition :=
  match holdsRunningSlot source, holdsRunningSlot target with
  | false, true => .enteredRunning
  | true, false => .leftRunning
  | _, _ => .unchanged

end Ironclaw.Turns
