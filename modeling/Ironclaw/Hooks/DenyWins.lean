import Ironclaw.Hooks.Dispatch

/-!
# Which decision wins

A dispatch without failures returns the strongest decision among the hooks it hears.  It
hears a hook of the telemetry phase always, and any other hook only if no restrictive
decision came before it; so a later denial is lost behind an earlier pause.
-/

namespace Ironclaw.Hooks

open Lib HookRegistry HookBinding
open DispatchState (applyDecision fail fanoutExceeded hear missing)
open BeforeCapabilityHookDecision (severity)
open List

/-- The scope of the hook permits the provider of the capability. -/
def HookBinding.fires (context : BeforeCapabilityHookContext) (binding : HookBinding) : Bool :=
  binding.scope.permits binding.owningExtension context.provider

namespace HookDispatcher

variable (dispatcher : HookDispatcher) (context : BeforeCapabilityHookContext)

/-- The registered hooks that are not poisoned and whose scope permits the provider. -/
def eligible : List HookBinding :=
  (dispatcher.registry.activeAt .beforeCapability).filter (·.fires context)

def decisionOf (binding : HookBinding) : Option BeforeCapabilityHookDecision :=
  match dispatcher.beforeCapability binding.hookId with
  | none => none
  | some hook =>
    match runBeforeCapabilityHook binding (hook context) with
    | .ok (.decision decision _) => some decision
    | _ => none

def restricts (binding : HookBinding) : Bool :=
  (dispatcher.decisionOf context binding).any (·.isRestrictive)

/-- The decision is the most restrictive one that the eligible hooks return; without any it
is to allow. -/
def MostRestrictive (decision : BeforeCapabilityHookDecision) : Prop :=
  (∀ binding ∈ dispatcher.eligible context, ∀ returned ∈ dispatcher.decisionOf context binding,
      returned.severity ≤ decision.severity) ∧
    (decision = .allow ∨ ∃ binding ∈ dispatcher.eligible context,
      decision ∈ dispatcher.decisionOf context binding)

instance (decision : BeforeCapabilityHookDecision) :
    Decidable (dispatcher.MostRestrictive context decision) :=
  inferInstanceAs (Decidable (_ ∧ _))

/-- The hook stands behind one that denies or pauses, and is not of the telemetry phase. -/
def StandsBehind (binding : HookBinding) : Prop :=
  binding.phase ≠ .telemetry ∧ ∃ earlier ∈ dispatcher.eligible context,
    earlier.RunsBefore binding ∧ dispatcher.restricts context earlier = true

instance (binding : HookBinding) : Decidable (dispatcher.StandsBehind context binding) :=
  inferInstanceAs (Decidable (_ ∧ _))

/-! ## The loop hears who is heard -/

variable {dispatcher context} {state : DispatchState} {bindings : List HookBinding}

/-- A failure is never forgotten. -/
theorem failures_nil_of_runHooks
    (clean : (dispatcher.runHooks context bindings state).failures = []) : state.failures = [] := by
  induction bindings generalizing state with
  | nil => exact clean
  | cons binding rest ih =>
    unfold runHooks at clean
    iterate 3
      split at clean
      · exact ih clean
    split at clean
    · have earlier := ih clean
      simp [missing] at earlier
    · split at clean
      · simp [fanoutExceeded] at clean
      have earlier := ih clean
      unfold hear applyDecision fail at earlier
      split at earlier
      · exact earlier
      · exact earlier
      · split at earlier <;> simp at earlier

variable {binding : HookBinding} {rest : List HookBinding}

theorem runHooks_cons_run (audible : (state.shortCircuited && binding.phase ≠ .telemetry) = false)
    (notPoisoned : binding.hookId ∉ state.poisoned) (permitted : binding.fires context = true)
    (clean : (dispatcher.runHooks context (binding :: rest) state).failures = []) :
    ∃ hook outcome, dispatcher.beforeCapability binding.hookId = some hook ∧
      runBeforeCapabilityHook binding (hook context) = .ok outcome ∧
      dispatcher.runHooks context (binding :: rest) state =
        dispatcher.runHooks context rest (state.hear (.ok outcome)) := by
  unfold fires at permitted
  rw [runHooks] at clean ⊢
  simp only [audible, Bool.false_eq_true, if_false, notPoisoned, permitted, Bool.not_true]
    at clean ⊢
  cases implemented : dispatcher.beforeCapability binding.hookId with
  | none =>
    rw [implemented] at clean
    have earlier := failures_nil_of_runHooks clean
    simp [missing] at earlier
  | some hook =>
    simp only [implemented] at clean ⊢
    split at clean
    · simp [fanoutExceeded] at clean
    rename_i withinCap
    rw [if_neg withinCap]
    cases ran : runBeforeCapabilityHook binding (hook context) with
    | ok outcome => exact ⟨hook, outcome, rfl, ran, rfl⟩
    | error =>
      rw [ran] at clean
      have earlier := failures_nil_of_runHooks clean
      unfold hear fail at earlier
      dsimp only at earlier
      split at earlier <;> simp at earlier

theorem runHooks_cons_skip (skipped : (state.shortCircuited && binding.phase ≠ .telemetry) = true ∨
      binding.fires context = false) :
    dispatcher.runHooks context (binding :: rest) state =
      dispatcher.runHooks context rest state := by
  rw [runHooks]
  split
  · rfl
  rename_i audible
  split
  · rfl
  · rw [if_pos]
    simpa [fires] using skipped.resolve_left audible

theorem hear_decision (synced : state.shortCircuited = state.composed.isRestrictive)
    (decision : BeforeCapabilityHookDecision) (auditReason : Option String) :
    let after := state.hear (.ok (.decision decision auditReason))
    after.composed = keepStronger severity state.composed decision ∧
      after.shortCircuited = (state.shortCircuited || decision.isRestrictive) ∧
      after.shortCircuited = after.composed.isRestrictive := by
  refine ⟨composeGateDecision_eq _ _, ?_, ?_⟩ <;>
    simp [hear, applyDecision, composeGateDecision_isRestrictive, synced]

/-- The loop composes the decisions of the hooks it hears. -/
theorem runHooks_composed (unpoisoned : ∀ binding ∈ bindings, binding.hookId ∉ state.poisoned)
    (synced : state.shortCircuited = state.composed.isRestrictive)
    (clean : (dispatcher.runHooks context bindings state).failures = []) :
    (dispatcher.runHooks context bindings state).composed = strongest severity state.composed
        ((heard (dispatcher.restricts context) (·.phase = .telemetry) state.shortCircuited
          (bindings.filter (·.fires context))).filterMap (dispatcher.decisionOf context)) := by
  induction bindings generalizing state with
  | nil => rfl
  | cons binding _ ih =>
    have restUnpoisoned := fun other listed => unpoisoned other (mem_cons_of_mem _ listed)
    cases permitted : binding.fires context with
    | false =>
      rw [runHooks_cons_skip (.inr permitted)] at clean ⊢
      rw [ih restUnpoisoned synced clean, filter_cons_of_neg (by simp [permitted])]
    | true =>
      rw [filter_cons_of_pos permitted]
      cases audible : (state.shortCircuited && binding.phase ≠ .telemetry) with
      | true =>
        rw [runHooks_cons_skip (.inl audible)] at clean ⊢
        rw [ih restUnpoisoned synced clean, heard, if_pos (by simpa using audible)]
      | false =>
        obtain ⟨_, outcome, implemented, ran, next⟩ := runHooks_cons_run audible
          (unpoisoned binding mem_cons_self) permitted clean
        rw [next] at clean ⊢
        rw [heard, if_neg (by simpa using audible)]
        cases outcome with
        | pass =>
          have noDecision : dispatcher.decisionOf context binding = none := by
            simp [decisionOf, implemented, ran]
          have silent : dispatcher.restricts context binding = false := by
            simp [restricts, noDecision]
          have composed := @ih (state.hear (.ok .pass)) restUnpoisoned synced clean
          rw [composed, filterMap_cons_none noDecision, silent, Bool.or_false]
          rfl
        | decision decision auditReason =>
          have returned : dispatcher.decisionOf context binding = some decision := by
            simp [decisionOf, implemented, ran]
          have closes : dispatcher.restricts context binding = decision.isRestrictive := by
            simp [restricts, returned]
          obtain ⟨kept, closed, stillSynced⟩ := hear_decision synced decision auditReason
          rw [ih (by exact restUnpoisoned) stillSynced clean,
            filterMap_cons_some returned, kept, closed, closes]
          rfl

/-! ## The winner -/

theorem dispatched_composed (clean : (dispatcher.dispatchBeforeCapability context).failures = []) :
    (dispatcher.dispatchBeforeCapability context).decision = strongest severity .allow
        ((heard (dispatcher.restricts context) (·.phase = .telemetry) false
          ((dispatcher.registry.orderedBindings .beforeCapability).filter
            (·.fires context))).filterMap (dispatcher.decisionOf context)) := by
  refine runHooks_composed ?_ rfl clean
  intro binding listed
  exact activeAt_not_poisoned (mem_orderedBindings.mp listed)

/-- The hooks heard are the eligible ones that do not stand behind a restrictive one. -/
theorem mem_heard_iff (binding : HookBinding) :
    binding ∈ heard (dispatcher.restricts context) (·.phase = .telemetry) false
        ((dispatcher.registry.orderedBindings .beforeCapability).filter (·.fires context)) ↔
      binding ∈ dispatcher.eligible context ∧ ¬dispatcher.StandsBehind context binding := by
  have listed : ∀ other, other ∈ (dispatcher.registry.orderedBindings .beforeCapability).filter
      (·.fires context) ↔ other ∈ dispatcher.eligible context := by
    intro other
    rw [eligible, mem_filter, mem_filter, mem_orderedBindings]
  rw [mem_heard (orderedBindings_pairwise.sublist filter_sublist) runsBefore_asymm, listed]
  refine and_congr_right fun _ => ?_
  simp only [decide_eq_true_eq, true_and, StandsBehind, not_and, not_exists, listed]
  constructor
  · rintro (exempt | quiet) notTelemetry earlier inEligible
    · exact absurd exempt notTelemetry
    · intro precedes
      simp [quiet earlier inEligible precedes]
  · intro notBehind
    by_cases exempt : binding.phase = .telemetry
    · exact .inl exempt
    · refine .inr fun earlier inEligible precedes => ?_
      simpa using notBehind exempt earlier inEligible precedes

theorem winner_heard (clean : (dispatcher.dispatchBeforeCapability context).failures = []) :
    (dispatcher.dispatchBeforeCapability context).decision = .allow ∨
      ∃ binding ∈ dispatcher.eligible context, ¬dispatcher.StandsBehind context binding ∧
        (dispatcher.dispatchBeforeCapability context).decision ∈
          dispatcher.decisionOf context binding := by
  have member := dispatched_composed clean ▸
    strongest_mem severity .allow _
  rcases mem_cons.mp member with allowed | returned
  · exact .inl allowed
  · obtain ⟨binding, wasHeard, decided⟩ := mem_filterMap.mp returned
    obtain ⟨inEligible, notBehind⟩ := (mem_heard_iff binding).mp wasHeard
    exact .inr ⟨binding, inEligible, notBehind, decided⟩

theorem heard_le_winner (clean : (dispatcher.dispatchBeforeCapability context).failures = [])
    (inEligible : binding ∈ dispatcher.eligible context)
    (notBehind : ¬dispatcher.StandsBehind context binding) {returned : BeforeCapabilityHookDecision}
    (decided : returned ∈ dispatcher.decisionOf context binding) :
    returned.severity ≤ (dispatcher.dispatchBeforeCapability context).decision.severity := by
  rw [dispatched_composed clean]
  refine rank_le_strongest _
    (mem_cons_of_mem _ (mem_filterMap.mpr ⟨binding, ?_, decided⟩))
  exact (mem_heard_iff binding).mpr ⟨inEligible, notBehind⟩

variable (dispatcher context)

/-- A dispatch without failures returns the most restrictive decision exactly if every hook
that denies or pauses behind a restrictive one is matched by a hook that is heard. -/
theorem most_restrictive_decision_wins
    (clean : (dispatcher.dispatchBeforeCapability context).failures = []) :
    dispatcher.MostRestrictive context (dispatcher.dispatchBeforeCapability context).decision ↔
      ∀ later ∈ dispatcher.eligible context, dispatcher.StandsBehind context later →
        ∀ lost ∈ dispatcher.decisionOf context later, lost.isRestrictive = true →
          ∃ binding ∈ dispatcher.eligible context, ¬dispatcher.StandsBehind context binding ∧
            ∃ returned ∈ dispatcher.decisionOf context binding,
              lost.severity ≤ returned.severity := by
  constructor
  · rintro ⟨atMost, _⟩ later inEligible _ lost decided restrictive
    have bound := atMost later inEligible lost decided
    rcases winner_heard clean with allowed | ⟨binding, listed, notBehind, won⟩
    · rw [allowed] at bound
      exact absurd (BeforeCapabilityHookDecision.isRestrictive_iff.mp restrictive)
        (Nat.not_lt.mpr bound)
    · exact ⟨binding, listed, notBehind, _, won, bound⟩
  · intro matched
    refine ⟨fun later inEligible lost decided => ?_, ?_⟩
    · by_cases behind : dispatcher.StandsBehind context later
      · cases restrictive : lost.isRestrictive with
        | true =>
          obtain ⟨binding, listed, notBehind, _, answered, bound⟩ :=
            matched later inEligible behind lost decided restrictive
          exact bound.trans (heard_le_winner clean listed notBehind answered)
        | false =>
          have harmless : lost.severity = 0 := by
            cases lost <;> first | rfl | cases restrictive
          rw [harmless]
          exact Nat.zero_le _
      · exact heard_le_winner clean inEligible behind decided
    · exact (winner_heard clean).imp_right fun ⟨binding, listed, _, won⟩ =>
        ⟨binding, listed, won⟩

end HookDispatcher

/-! ## A pause and a denial -/

def policyHook (digest : Nat) : HookBinding where
  hookId := ⟨digest⟩
  trustClass := .trusted
  phase := .policy
  priority := .default
  point := .beforeCapability
  eventKindFilter := none
  owningExtension := none
  scope := .global
  poisoned := false

/-- Hook 1 asks for approval and hook 2 denies. -/
def sampleHook : HookId → Option (BeforeCapabilityHookContext → HookEvaluation)
  | ⟨1⟩ => some fun _ => .finished (.decided (.pauseApproval ⟨"needs approval"⟩)) none
  | ⟨2⟩ => some fun _ => .finished (.decided (.deny ⟨"not allowed"⟩)) none
  | _ => none

/-- Two hooks of the policy phase; `first` is the one that runs first. -/
def sampleDispatcher (first : HookId) : HookDispatcher where
  registry :=
    match fromBindings [policyHook 1, policyHook 2] with
    | .ok registry => registry.setPriority first ⟨0⟩
    | .error _ => .new
  beforeCapability := sampleHook
  maxBeforeCapabilityHooksPerDispatch := 64

def sampleContext : BeforeCapabilityHookContext where
  tenantId := ⟨"tenant"⟩
  capabilityName := "shell"
  argumentsDigest := 0
  arguments := "unresolved"
  provider := none
  callerEventId := none

/-- The denial comes first and wins. -/
theorem denial_before_pause_wins :
    (sampleDispatcher ⟨2⟩).MostRestrictive sampleContext (.deny ⟨"not allowed"⟩) :=
  ((sampleDispatcher ⟨2⟩).most_restrictive_decision_wins sampleContext (by decide)).mpr (by decide)

/-- The pause comes first and the denial is never heard. -/
theorem denial_behind_pause_is_lost :
    ((sampleDispatcher ⟨1⟩).dispatchBeforeCapability sampleContext).failures = [] ∧
      ((sampleDispatcher ⟨1⟩).dispatchBeforeCapability sampleContext).decision =
        .pauseApproval ⟨"needs approval"⟩ ∧
      policyHook 2 ∈ (sampleDispatcher ⟨1⟩).eligible sampleContext ∧
      .deny ⟨"not allowed"⟩ ∈ (sampleDispatcher ⟨1⟩).decisionOf sampleContext (policyHook 2) ∧
      ¬(sampleDispatcher ⟨1⟩).MostRestrictive sampleContext
        ((sampleDispatcher ⟨1⟩).dispatchBeforeCapability sampleContext).decision := by
  decide

/-! ## Failures -/

/-- What stopped the loop or failed shows in the decision. -/
def DispatchState.Guarded (state : DispatchState) : Prop :=
  state.shortCircuited = true ∨ state.failures ≠ [] → state.composed.isRestrictive = true

theorem composeGateDecision_deny (current : BeforeCapabilityHookDecision)
    (reason : SanitizedReason) :
    (composeGateDecision current (.deny reason)).isRestrictive = true := by
  rw [composeGateDecision_isRestrictive]
  exact Bool.or_true _

theorem DispatchState.Guarded.hear {state : DispatchState} (guarded : state.Guarded)
    {binding : HookBinding} (gate : binding.point = .beforeCapability)
    (evaluation : HookEvaluation) :
    (state.hear (runBeforeCapabilityHook binding evaluation)).Guarded := by
  -- A gate hook fails closed, in every way it can fail.
  have closed : ∀ failure, runBeforeCapabilityHook binding evaluation = .error failure →
      failure.disposition = .failClosed := by
    intro failure failed
    unfold runBeforeCapabilityHook at failed
    split at failed <;> cases failed <;> rw [classifyFailure, gate] <;> rfl
  unfold DispatchState.hear
  split
  · exact guarded
  · simp only [Guarded, applyDecision, composeGateDecision_isRestrictive, Bool.or_eq_true]
      at guarded ⊢
    tauto
  next failure ran =>
    simp only [fail, closed failure ran]
    exact fun _ => composeGateDecision_deny _ _

namespace HookDispatcher

theorem runHooks_guarded {dispatcher : HookDispatcher} {context : BeforeCapabilityHookContext}
    {bindings : List HookBinding} {state : DispatchState}
    (gates : ∀ binding ∈ bindings, binding.point = .beforeCapability)
    (guarded : state.Guarded) : (dispatcher.runHooks context bindings state).Guarded := by
  induction bindings generalizing state with
  | nil => exact guarded
  | cons binding rest ih =>
    obtain ⟨gate, gates⟩ := forall_mem_cons.mp gates
    rw [runHooks]
    -- The hook is passed over, or has no implementation, or is one too many, or runs.
    iterate 3
      split
      · exact ih gates guarded
    split
    · refine ih gates fun _ => ?_
      dsimp only [missing]
      split
      next stopped => exact guarded (.inl stopped)
      · rfl
    · split
      · exact fun _ => composeGateDecision_deny _ _
      · exact ih gates (guarded.hear gate _)

/-- A dispatch in which a hook fails does not let the capability execute. -/
theorem dispatch_fails_closed (dispatcher : HookDispatcher)
    (context : BeforeCapabilityHookContext) :
    let outcome := dispatcher.dispatchBeforeCapability context
    outcome.failures = [] ∨ outcome.decision.isRestrictive = true := by
  refine or_iff_not_imp_left.mpr fun failed => runHooks_guarded ?_ ?_ (.inr failed)
  · intro _ listed
    have active := (mem_filter.mp (mem_orderedBindings.mp listed)).2
    exact of_decide_eq_true ((Bool.and_eq_true _ _).mp active).1
  · rintro (⟨⟨⟩⟩ | some)
    exact absurd rfl some

end HookDispatcher

end Ironclaw.Hooks
