import Ironclaw.Hooks.Registry
import Ironclaw.Lib.ShortCircuit

/-!
# Dispatching `before_capability`

The hooks registered at the point run one after another and their decisions are composed.
A hook is taken as the function from the context to what its evaluation ends with; a
failure poisons the hook and denies.
-/

namespace Ironclaw.Hooks

open HostApi Lib

/-! ## Decisions -/

structure SanitizedReason where
  text : String
  deriving DecidableEq

inductive BeforeCapabilityHookDecision where
  | allow
  | deny (reason : SanitizedReason)
  | pauseApproval (reason : SanitizedReason)
  | pauseAuth (reason : SanitizedReason)
  deriving DecidableEq

namespace BeforeCapabilityHookDecision

/-- Deny > PauseAuth > PauseApproval > Allow. -/
def severity : BeforeCapabilityHookDecision → Nat
  | allow => 0
  | pauseApproval _ => 1
  | pauseAuth _ => 2
  | deny _ => 3

def isDeny : BeforeCapabilityHookDecision → Bool
  | deny _ => true
  | _ => false

/-- The decision does not let the capability execute. -/
def isRestrictive : BeforeCapabilityHookDecision → Bool
  | allow => false
  | _ => true

theorem isRestrictive_iff {decision : BeforeCapabilityHookDecision} :
    decision.isRestrictive = true ↔ 0 < decision.severity := by
  cases decision <;> simp [isRestrictive, severity]

end BeforeCapabilityHookDecision

variable (current new : BeforeCapabilityHookDecision)

def composeGateDecision : BeforeCapabilityHookDecision :=
  match current, new with
  | .deny _, _ => current
  | _, .deny _ => new
  | .pauseAuth _, _ => current
  | _, .pauseAuth _ => new
  | .pauseApproval _, _ => current
  | _, .pauseApproval _ => new
  | .allow, .allow => current

/-- Two decisions compose to the more restrictive one, the first if they are equally so. -/
theorem composeGateDecision_eq : composeGateDecision current new =
      keepStronger BeforeCapabilityHookDecision.severity current new := by
  cases current <;> cases new <;> rfl

theorem composeGateDecision_isRestrictive : (composeGateDecision current new).isRestrictive =
      (current.isRestrictive || new.isRestrictive) := by
  cases current <;> cases new <;> rfl

/-! ## Running one hook -/

inductive FailureCategory where
  | timeout
  | panic
  | malformed
  | attenuationViolation

inductive DecisionKind where
  | gate
  | mutator
  | observer
  | effect

inductive FailureDisposition where
  | failClosed
  | failIsolated

def FailureCategory.dispositionFor (_ : FailureCategory) : DecisionKind → FailureDisposition
  | .gate | .mutator => .failClosed
  | .observer | .effect => .failIsolated

def decisionKindFor : HookPointSpec → DecisionKind
  | .beforeCapability => .gate
  | .beforePrompt => .mutator
  | .afterModel | .afterCapability | .afterCheckpoint | .eventTriggered => .observer

structure HookFailureRecord where
  hookId : HookId
  category : FailureCategory
  disposition : FailureDisposition
  reason : SanitizedReason

structure BeforeCapabilityHookContext where
  tenantId : TenantId
  capabilityName : String
  argumentsDigest : Nat
  arguments : String
  provider : Option ExtensionId
  callerEventId : Option String

inductive GateSinkState where
  | unset
  | passed
  | decided (decision : BeforeCapabilityHookDecision)

/-- What the evaluation of a hook ends with; the last two are those of a WASM hook. -/
inductive HookEvaluation where
  | finished (state : GateSinkState) (auditReason : Option String)
  | panicked
  | timedOut
  | taskAborted
  | wasmFailed (category : FailureCategory) (reason : String)

inductive GateHookOutcome where
  | pass
  | decision (decision : BeforeCapabilityHookDecision) (auditReason : Option String)

def classifyFailure (binding : HookBinding) (category : FailureCategory) (reason : String) :
    HookFailureRecord where
  hookId := binding.hookId
  category
  disposition := category.dispositionFor (decisionKindFor binding.point)
  reason := ⟨reason⟩

def runBeforeCapabilityHook (binding : HookBinding) (evaluation : HookEvaluation) :
    Except HookFailureRecord GateHookOutcome :=
  match evaluation with
  | .finished (.decided decision) auditReason => .ok (.decision decision auditReason)
  | .finished .passed _ => .ok .pass
  | .finished .unset _ =>
    .error (classifyFailure binding .malformed "hook completed without minting a decision")
  | .panicked => .error (classifyFailure binding .panic "hook panicked")
  | .timedOut => .error (classifyFailure binding .timeout "hook exceeded dispatch timeout")
  | .taskAborted => .error (classifyFailure binding .panic "hook blocking task aborted")
  | .wasmFailed category reason => .error (classifyFailure binding category reason)

/-! ## Running all hooks -/

structure HookDispatcher where
  registry : HookRegistry
  beforeCapability : HookId → Option (BeforeCapabilityHookContext → HookEvaluation)
  maxBeforeCapabilityHooksPerDispatch : Nat

/-- The local variables of the dispatch loop, and the registry it poisons. -/
structure DispatchState where
  composed : BeforeCapabilityHookDecision
  failures : List HookFailureRecord
  shortCircuited : Bool
  eligibleHooksEvaluated : Nat
  explicitDeny : Bool
  poisoned : List HookId
  registry : HookRegistry

def missingImplementationReason : String := "hook binding missing implementation"

def fanoutExceededReason : String := "before_capability dispatch fan-out budget exceeded"

namespace DispatchState

variable (state : DispatchState)

/-- A binding without an implementation is poisoned and denies. -/
def missing (binding : HookBinding) : DispatchState :=
  { state with
    failures := state.failures ++ [
      { hookId := binding.hookId
        category := .malformed
        disposition := FailureCategory.malformed.dispositionFor .gate
        reason := ⟨"binding present without installed implementation"⟩ }]
    poisoned := binding.hookId :: state.poisoned
    registry := state.registry.poison binding.hookId
    composed := if state.shortCircuited then state.composed
      else .deny ⟨missingImplementationReason⟩
    shortCircuited := true }

/-- One more hook than the dispatch may run. -/
def fanoutExceeded (binding : HookBinding) : DispatchState :=
  { state with
    failures := state.failures ++ [
      { hookId := binding.hookId
        category := .timeout
        disposition := FailureCategory.timeout.dispositionFor .gate
        reason := ⟨fanoutExceededReason⟩ }]
    composed := composeGateDecision state.composed (.deny ⟨fanoutExceededReason⟩) }

def applyDecision (decision : BeforeCapabilityHookDecision) : DispatchState :=
  let composed := composeGateDecision state.composed decision
  { state with
    composed
    explicitDeny := state.explicitDeny || (composed.isDeny && !state.composed.isDeny)
    shortCircuited := state.shortCircuited || composed.isRestrictive }

/-- A failure poisons the hook; a closed one denies. -/
def fail (failure : HookFailureRecord) : DispatchState :=
  let recorded := { state with
    failures := state.failures ++ [failure]
    poisoned := failure.hookId :: state.poisoned
    registry := state.registry.poison failure.hookId }
  match failure.disposition with
  | .failClosed =>
    let composed := composeGateDecision state.composed (.deny failure.reason)
    { recorded with
      composed
      shortCircuited := state.shortCircuited || composed.isRestrictive }
  | .failIsolated => recorded

def hear (result : Except HookFailureRecord GateHookOutcome) : DispatchState :=
  let counted := { state with eligibleHooksEvaluated := state.eligibleHooksEvaluated + 1 }
  match result with
  | .ok .pass => counted
  | .ok (.decision decision _) => counted.applyDecision decision
  | .error failure => counted.fail failure

end DispatchState

structure BeforeCapabilityDispatchOutcome where
  decision : BeforeCapabilityHookDecision
  failures : List HookFailureRecord
  /-- The capability named in the recorded `HookDeny` event. -/
  blockAudit : Option String

namespace HookDispatcher

variable (dispatcher : HookDispatcher) (context : BeforeCapabilityHookContext)

/-- The loop over the ordered bindings. -/
def runHooks : List HookBinding → DispatchState → DispatchState
  | [], state => state
  | binding :: rest, state =>
    if state.shortCircuited && binding.phase ≠ .telemetry then runHooks rest state
    else if binding.hookId ∈ state.poisoned then runHooks rest state
    else if !binding.scope.permits binding.owningExtension context.provider then
      runHooks rest state
    else
      match dispatcher.beforeCapability binding.hookId with
      | none => runHooks rest (state.missing binding)
      | some hook =>
        if state.eligibleHooksEvaluated ≥ dispatcher.maxBeforeCapabilityHooksPerDispatch then
          state.fanoutExceeded binding
        else runHooks rest (state.hear (runBeforeCapabilityHook binding (hook context)))

def initialState : DispatchState where
  composed := .allow
  failures := []
  shortCircuited := false
  eligibleHooksEvaluated := 0
  explicitDeny := false
  poisoned := dispatcher.registry.poisonedIds
  registry := dispatcher.registry

def dispatched : DispatchState :=
  dispatcher.runHooks context (dispatcher.registry.orderedBindings .beforeCapability)
    dispatcher.initialState

def dispatchBeforeCapability : BeforeCapabilityDispatchOutcome :=
  let final := dispatcher.dispatched context
  { decision := final.composed
    failures := final.failures
    blockAudit :=
      if final.explicitDeny && final.composed.isDeny then some context.capabilityName else none }

end HookDispatcher

end Ironclaw.Hooks
