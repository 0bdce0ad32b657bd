import Mathlib.Data.List.Sort
import Ironclaw.HostApi.Scope

/-!
# Hook bindings and their order

The registry holds the hook bindings of a run, each under its own id and admitted by the
checks of `insert`.  At a point the hooks run by phase, then by priority, then by id.
-/

namespace Ironclaw.Hooks

open HostApi
open List

/-! ## Bindings -/

/-- A 32-byte digest, read as a big-endian number: two of them compare as their bytes do. -/
structure HookId where
  digest : Nat
  deriving DecidableEq

/-- The digest as 64 lowercase hexadecimal digits. -/
def HookId.toHex (id : HookId) : String :=
  let digits := Nat.toDigits 16 id.digest
  String.ofList (replicate (64 - digits.length) '0' ++ digits)

inductive HookTrustClass where
  | builtin
  | trusted
  | installed
  | selfAuthored
  deriving DecidableEq

def HookTrustClass.debugName : HookTrustClass → String
  | .builtin => "Builtin"
  | .trusted => "Trusted"
  | .installed => "Installed"
  | .selfAuthored => "SelfAuthored"

inductive HookPhase where
  | validation
  | authorization
  | policy
  | telemetry
  deriving DecidableEq

namespace HookPhase

def debugName : HookPhase → String
  | validation => "Validation"
  | authorization => "Authorization"
  | policy => "Policy"
  | telemetry => "Telemetry"

def rank : HookPhase → Nat
  | validation => 0
  | authorization => 1
  | policy => 2
  | telemetry => 3

def permitsTrust (phase : HookPhase) (trust : HookTrustClass) : Bool :=
  match phase with
  | validation | authorization => trust = .builtin
  | policy | telemetry => true

end HookPhase

/-- Lower numbers run first. -/
structure HookPriority where
  value : Int
  deriving DecidableEq

def HookPriority.default : HookPriority := ⟨100⟩

inductive HookPointSpec where
  | beforeCapability
  | beforePrompt
  | afterModel
  | afterCapability
  | afterCheckpoint
  | eventTriggered
  deriving DecidableEq

def HookPointSpec.debugName : HookPointSpec → String
  | beforeCapability => "BeforeCapability"
  | beforePrompt => "BeforePrompt"
  | afterModel => "AfterModel"
  | afterCapability => "AfterCapability"
  | afterCheckpoint => "AfterCheckpoint"
  | eventTriggered => "EventTriggered"

inductive RuntimeEventKind where
  | dispatchRequested
  | runtimeSelected
  | dispatchSucceeded
  | dispatchFailed
  | capabilityActivityRequested
  | capabilityActivitySucceeded
  | capabilityActivityFailed
  | modelStarted
  | modelCompleted
  | modelFailed
  | assistantReplyFinalized
  | loopCompleted
  | loopCancelled
  | loopFailed
  | processStarted
  | processCompleted
  | processFailed
  | processKilled
  | hookDispatched
  | hookDecisionEmitted
  | hookFailed
  deriving DecidableEq

inductive HookBindingScope where
  | global
  | ownCapabilities
  | sameTenant
  deriving DecidableEq

/-- Whether a hook fires for a capability of the given provider. -/
def HookBindingScope.permits (scope : HookBindingScope)
    (owningExtension invocationProvider : Option ExtensionId) : Bool :=
  match scope with
  | global | sameTenant => true
  | ownCapabilities =>
    match owningExtension, invocationProvider with
    | some owner, some provider => owner = provider
    | _, _ => false

structure HookBinding where
  hookId : HookId
  trustClass : HookTrustClass
  phase : HookPhase
  priority : HookPriority
  point : HookPointSpec
  eventKindFilter : Option RuntimeEventKind
  owningExtension : Option ExtensionId
  scope : HookBindingScope
  poisoned : Bool
  deriving DecidableEq

/-! ## Order -/

structure HookOrderKey where
  phase : HookPhase
  priority : HookPriority
  hookId : HookId

namespace HookOrderKey

def cmp : HookOrderKey → HookOrderKey → Ordering :=
  compareLex (compareOn (·.phase.rank))
    (compareLex (compareOn (·.priority.value)) (compareOn (·.hookId.digest)))

instance : Std.TransCmp cmp := inferInstanceAs (Std.TransCmp (compareLex _ _))

theorem eq_of_cmp {first second : HookOrderKey} (same : first.cmp second = .eq) :
    first = second := by
  simp only [cmp, compareLex_eq_eq, compareOn, compare_eq_iff_eq] at same
  obtain ⟨samePhase, samePriority, sameId⟩ := same
  obtain ⟨phase, ⟨_⟩, ⟨_⟩⟩ := first
  obtain ⟨otherPhase, ⟨_⟩, ⟨_⟩⟩ := second
  obtain rfl : phase = otherPhase := by
    cases phase <;> cases otherPhase <;> first | rfl | cases samePhase
  obtain rfl : _ = _ := samePriority
  obtain rfl : _ = _ := sameId
  rfl

end HookOrderKey

def HookBinding.key (binding : HookBinding) : HookOrderKey :=
  ⟨binding.phase, binding.priority, binding.hookId⟩

def HookBinding.RunsBefore (first second : HookBinding) : Prop := first.key.cmp second.key = .lt

instance (first second : HookBinding) : Decidable (first.RunsBefore second) :=
  inferInstanceAs (Decidable (_ = _))

theorem HookBinding.runsBefore_asymm (first second : HookBinding)
    (earlier : first.RunsBefore second) : ¬second.RunsBefore first := by
  intro later
  have swapped : first.key.cmp second.key = (second.key.cmp first.key).swap :=
    Std.OrientedCmp.eq_swap
  rw [earlier, later] at swapped
  cases swapped

/-! ## The registry -/

inductive HookError where
  | registryConstruction (message : String)

/-- The points at which a resolved provider is known. -/
def pointHasCapabilityContext : HookPointSpec → Bool
  | .beforeCapability | .afterCapability | .eventTriggered => true
  | .beforePrompt | .afterModel | .afterCheckpoint => false

/-- The checks of `insert` on the binding alone. -/
def HookBinding.check (binding : HookBinding) : Except HookError Unit :=
  let refuse := fun message => .error (.registryConstruction message)
  if !binding.phase.permitsTrust binding.trustClass then
    refuse (binding.trustClass.debugName ++ "-tier hook cannot register at phase " ++
      binding.phase.debugName)
  else if binding.scope = .ownCapabilities ∧ !pointHasCapabilityContext binding.point then
    refuse ("scope `OwnCapabilities` not supported at point " ++ binding.point.debugName ++
      ": this point has no per-capability invocation context. " ++
      "Use `Global` or `SameTenant` instead.")
  else if binding.point = .eventTriggered ∧ binding.eventKindFilter = none then
    refuse ("event-triggered binding `" ++ binding.hookId.toHex ++
      "` must declare an event_kind_filter; without one the dispatcher would never match")
  else if binding.point ≠ .eventTriggered ∧ binding.eventKindFilter ≠ none then
    refuse ("binding `" ++ binding.hookId.toHex ++ "` at point " ++ binding.point.debugName ++
      " must not declare an event_kind_filter; only EventTriggered bindings use kind filters")
  else .ok ()

/-- The bindings in the order of their insertion: each was admitted, and no id occurs
twice. -/
structure HookRegistry where
  bindings : List HookBinding
  admitted : ∀ binding ∈ bindings, binding.check = .ok ()
  distinct : (bindings.map (·.hookId)).Nodup

namespace HookRegistry

def new : HookRegistry where
  bindings := []
  admitted := by simp
  distinct := by simp

def insert (registry : HookRegistry) (binding : HookBinding) : Except HookError HookRegistry :=
  match checked : binding.check with
  | .error error => .error error
  | .ok () =>
    if fresh : binding.hookId ∈ registry.bindings.map (·.hookId) then
      .error (.registryConstruction ("duplicate hook id `" ++ binding.hookId.toHex ++
        "` rejected: each hook id may register against the registry at most once"))
    else .ok
      { bindings := registry.bindings ++ [binding]
        admitted := by
          intro stored listed
          rcases mem_append.mp listed with old | new
          · exact registry.admitted stored old
          · rw [mem_singleton.mp new]
            exact checked
        distinct := by
          rw [map_append, nodup_append]
          refine ⟨registry.distinct, nodup_singleton _, ?_⟩
          rintro id old _ (new : _ ∈ [binding.hookId]) rfl
          exact fresh (mem_singleton.mp new ▸ old) }

def fromBindings (bindings : List HookBinding) : Except HookError HookRegistry :=
  bindings.foldlM insert new

/-- Change the binding with the given id; the checks read neither the priority nor the
poison. -/
def update (registry : HookRegistry) (hookId : HookId) (change : HookBinding → HookBinding)
    (sameId : ∀ binding, (change binding).hookId = binding.hookId)
    (sameCheck : ∀ binding, (change binding).check = binding.check) : HookRegistry where
  bindings := registry.bindings.map fun binding =>
    if binding.hookId = hookId then change binding else binding
  admitted := by
    intro _ listed
    obtain ⟨binding, old, rfl⟩ := mem_map.mp listed
    split
    · rw [sameCheck]
      exact registry.admitted binding old
    · exact registry.admitted binding old
  distinct := by
    have same : ((fun binding : HookBinding => binding.hookId) ∘ fun binding =>
        if binding.hookId = hookId then change binding else binding) = (·.hookId) := by
      funext binding
      simp only [Function.comp_apply]
      split
      · exact sameId binding
      · rfl
    rw [map_map, same]
    exact registry.distinct

def setPriority (registry : HookRegistry) (hookId : HookId) (priority : HookPriority) :
    HookRegistry :=
  registry.update hookId ({ · with priority }) (fun _ => rfl) (fun _ => rfl)

def poison (registry : HookRegistry) (hookId : HookId) : HookRegistry :=
  registry.update hookId ({ · with poisoned := true }) (fun _ => rfl) (fun _ => rfl)

def activeAt (registry : HookRegistry) (point : HookPointSpec) : List HookBinding :=
  registry.bindings.filter fun binding => binding.point = point && !binding.poisoned

def poisonedIds (registry : HookRegistry) : List HookId :=
  (registry.bindings.filter (·.poisoned)).map (·.hookId)

/-- `ordered_bindings_with_poison_snapshot`. -/
def orderedBindings (registry : HookRegistry) (point : HookPointSpec) : List HookBinding :=
  (registry.activeAt point).insertionSort fun first second => (first.key.cmp second.key).isLE = true

variable {registry : HookRegistry} {point : HookPointSpec} {binding : HookBinding}

theorem mem_orderedBindings :
    binding ∈ registry.orderedBindings point ↔ binding ∈ registry.activeAt point :=
  mem_insertionSort _

theorem orderedBindings_nodup (registry : HookRegistry) (point : HookPointSpec) :
    ((registry.orderedBindings point).map (·.hookId)).Nodup := by
  have permuted := (perm_insertionSort (fun first second : HookBinding =>
    (first.key.cmp second.key).isLE = true) (registry.activeAt point)).map (·.hookId)
  exact permuted.nodup_iff.mpr (registry.distinct.sublist (filter_sublist.map _))

theorem orderedBindings_pairwise :
    (registry.orderedBindings point).Pairwise HookBinding.RunsBefore := by
  have total : Std.Total fun first second : HookBinding =>
      (first.key.cmp second.key).isLE = true := by
    refine ⟨fun first second => ?_⟩
    have swapped : second.key.cmp first.key = (first.key.cmp second.key).swap :=
      Std.OrientedCmp.eq_swap
    rw [swapped]
    cases first.key.cmp second.key <;> simp
  have trans : IsTrans HookBinding fun first second =>
      (first.key.cmp second.key).isLE = true :=
    ⟨fun _ _ _ => Std.TransCmp.isLE_trans⟩
  have sorted := pairwise_insertionSort (fun first second : HookBinding =>
    (first.key.cmp second.key).isLE = true) (registry.activeAt point)
  refine (sorted.and (pairwise_map.mp (orderedBindings_nodup registry point))).imp ?_
  rintro first second ⟨inOrder, different⟩
  unfold HookBinding.RunsBefore
  cases compared : first.key.cmp second.key with
  | lt => rfl
  | eq => exact absurd (congrArg HookOrderKey.hookId (HookOrderKey.eq_of_cmp compared)) different
  | gt =>
    rw [compared] at inOrder
    cases inOrder

/-- An active binding is not in the poison snapshot: ids are unique across points. -/
theorem activeAt_not_poisoned (active : binding ∈ registry.activeAt point) :
    binding.hookId ∉ registry.poisonedIds := by
  intro poisoned
  obtain ⟨_, listed, sameId⟩ := mem_map.mp poisoned
  obtain ⟨inRegistry, isPoisoned⟩ := mem_filter.mp listed
  obtain ⟨alsoIn, isActive⟩ := mem_filter.mp active
  have same := inj_on_of_nodup_map registry.distinct inRegistry alsoIn sameId
  rw [same] at isPoisoned
  simp [isPoisoned] at isActive

end HookRegistry

end Ironclaw.Hooks
