import Mathlib.Logic.Function.Basic
import Ironclaw.Lib.System

/-!
# The circuit breaker of a provider

A call is admitted in one step and reports its outcome in a later one, and the outcome counts
against the state the breaker is in by then.  A call that was admitted before the breaker opened
and succeeds afterwards therefore closes it.
-/

namespace Ironclaw.Llm

open Lib Function System

inductive LlmError where
  | requestFailed | rateLimited | badGateway | invalidResponse | emptyResponse
  | contextLengthExceeded | modelNotAvailable | authFailed | sessionExpired | sessionRenewalFailed
  | http | json | io

def isTransient : LlmError → Bool
  | .requestFailed | .rateLimited | .badGateway | .invalidResponse | .emptyResponse
  | .sessionExpired | .sessionRenewalFailed | .http | .io => true
  | _ => false

structure CircuitBreakerConfig where
  failureThreshold : Nat
  recoveryTimeout : Nat
  halfOpenSuccessesNeeded : Nat

inductive CircuitState where
  | closed | opened | halfOpen
  deriving DecidableEq

structure BreakerState where
  state : CircuitState
  consecutiveFailures : Nat
  openedAt : Option Nat
  halfOpenSuccesses : Nat

namespace BreakerState

def new : BreakerState := ⟨.closed, 0, none, 0⟩

variable (breaker : BreakerState) (config : CircuitBreakerConfig) (now : Nat)

/-- A refusal tells of the failures and of the time that is left. -/
def checkAllowed : Except (Nat × Nat) Unit × BreakerState :=
  match breaker.state, breaker.openedAt with
  | .closed, _ | .halfOpen, _ => (.ok (), breaker)
  | .opened, some openedAt =>
    if config.recoveryTimeout ≤ now - openedAt then
      (.ok (), { breaker with state := .halfOpen, halfOpenSuccesses := 0 })
    else (.error (breaker.consecutiveFailures, config.recoveryTimeout - (now - openedAt)), breaker)
  | .opened, none => (.ok (), { breaker with state := .closed })

def recordSuccess : BreakerState :=
  match breaker.state with
  | .closed => { breaker with consecutiveFailures := 0 }
  | .halfOpen =>
    let counted := { breaker with halfOpenSuccesses := breaker.halfOpenSuccesses + 1 }
    if config.halfOpenSuccessesNeeded ≤ counted.halfOpenSuccesses then
      { counted with state := .closed, consecutiveFailures := 0, openedAt := none }
    else counted
  | .opened => { breaker with state := .closed, consecutiveFailures := 0, openedAt := none }

def recordFailure (error : LlmError) : BreakerState :=
  match isTransient error, breaker.state with
  | false, _ | true, .opened => breaker
  | true, .closed =>
    let counted := { breaker with consecutiveFailures := breaker.consecutiveFailures + 1 }
    if config.failureThreshold ≤ counted.consecutiveFailures then
      { counted with state := .opened, openedAt := some now }
    else counted
  | true, .halfOpen =>
    { breaker with state := .opened, openedAt := some now, halfOpenSuccesses := 0 }

end BreakerState

/-! ## Calls -/

/-- The breaker, the clock and the calls that are with the inner provider. -/
structure CircuitBreakerProvider (ι : Type) where
  breaker : BreakerState
  clock : Nat
  inner : ι → Bool

/-- A caller that starts again has dropped its last call. -/
inductive ProviderLabel (ι : Type) where
  | wait (time : Nat)
  | start (call : ι)
  | succeed (call : ι)
  | fail (call : ι) (error : LlmError)

/-- Since the breaker last opened: the calls admitted in the half-open state, and which of them
succeeded or had a transient failure. -/
structure Probing (ι : Type) where
  openedAt : Option Nat
  probes : ι → Bool
  outcomes : List Bool

variable {ι : Type} [DecidableEq ι] (config : CircuitBreakerConfig)

namespace CircuitBreakerProvider

variable (state : CircuitBreakerProvider ι)

/-- The two halves of `complete`. -/
def apply : ProviderLabel ι → CircuitBreakerProvider ι
  | .wait time => { state with clock := state.clock + time }
  | .start call =>
    let (allowed, breaker) := state.breaker.checkAllowed config state.clock
    { state with breaker, inner := update state.inner call allowed.isOk }
  | .succeed call =>
    { state with
      breaker := if state.inner call then state.breaker.recordSuccess config else state.breaker
      inner := update state.inner call false }
  | .fail call error =>
    { state with
      breaker := if state.inner call then state.breaker.recordFailure config state.clock error
        else state.breaker
      inner := update state.inner call false }

def enters (label : ProviderLabel ι) (entered : CircuitState) : Bool :=
  state.breaker.state ≠ entered ∧ (state.apply config label).breaker.state = entered

def record (label : ProviderLabel ι) (probing : Probing ι) : Probing ι :=
  if state.enters config label .opened then ⟨some state.clock, fun _ => false, []⟩
  else
    match label with
    | .wait _ => probing
    | .start call =>
      { probing with
        probes := update probing.probes call
          ((state.apply config label).breaker.state = .halfOpen) }
    | .succeed call =>
      { probing with
        outcomes := if state.inner call && probing.probes call then true :: probing.outcomes
          else probing.outcomes }
    | .fail call error =>
      { probing with
        outcomes := if state.inner call && probing.probes call && isTransient error then
          false :: probing.outcomes else probing.outcomes }

end CircuitBreakerProvider

open CircuitBreakerProvider BreakerState

abbrev ProviderRun (ι : Type) : Type := CircuitBreakerProvider ι × Probing ι

def next (run : ProviderRun ι) (label : ProviderLabel ι) : ProviderRun ι :=
  (run.1.apply config label, run.1.record config label run.2)

def fresh : ProviderRun ι := (⟨.new, 0, fun _ => false⟩, ⟨none, fun _ => false, []⟩)

/-- The calls through one breaker, with what the breaker does not keep beside it. -/
def providerRuns (ι : Type) [DecidableEq ι] (config : CircuitBreakerConfig) :
    System (ProviderRun ι) (ProviderLabel ι) :=
  .ofFunction (fun run => run = fresh) (next config)

/-- A call is passed on only when the timeout is over, and the breaker closes only behind enough
successes of probes and no failure of one. -/
def StaysOpen (run : ProviderRun ι) (label : ProviderLabel ι) : Prop :=
  (∀ call, label = .start call → (next config run label).1.inner call = true →
      ∀ time ∈ run.2.openedAt, time + config.recoveryTimeout ≤ run.1.clock) ∧
    (run.1.enters config label .closed = true →
      config.halfOpenSuccessesNeeded ≤ (next config run label).2.outcomes.length ∧
        false ∉ (next config run label).2.outcomes)

/-- A call that succeeds while the breaker is not closed is one of the probes. -/
def SucceedsInTime (run : ProviderRun ι) : ProviderLabel ι → Prop
  | .succeed call => run.1.inner call = true → run.1.breaker.state ≠ .closed →
      run.2.probes call = true
  | _ => True

/-- What is known in each state of the breaker: the timeout of the last opening is over, or
there are no probes yet. -/
def Sound (run : ProviderRun ι) : Prop :=
  let recovered := ∀ time ∈ run.2.openedAt, time + config.recoveryTimeout ≤ run.1.clock
  match run.1.breaker.state with
  | .closed => recovered
  | .opened => (run.2.outcomes = [] ∧ ∀ call, run.2.probes call = false) ∧
      ∃ time ≤ run.1.clock, run.1.breaker.openedAt = some time ∧ run.2.openedAt = some time
  | .halfOpen => recovered ∧ false ∉ run.2.outcomes ∧
      run.1.breaker.halfOpenSuccesses ≤ run.2.outcomes.length

variable {config} {run : ProviderRun ι}

theorem Sound.step (sound : Sound config run) (label : ProviderLabel ι)
    (inTime : SucceedsInTime run label) :
    Sound config (next config run label) ∧ StaysOpen config run label := by
  obtain ⟨⟨⟨state, failures, openedAt, successes⟩, clock, inner⟩, probing⟩ := run
  cases label with
  | wait time =>
    have later : ∀ {past}, past ≤ clock → past ≤ clock + time := fun le => Nat.le_add_right_of_le le
    cases state with
    | closed => exact ⟨fun past last => later (sound past last), nofun, nofun⟩
    | halfOpen => exact ⟨⟨fun past last => later (sound.1 past last), sound.2⟩, nofun, nofun⟩
    | opened =>
      obtain ⟨free, past, le, same⟩ := sound
      exact ⟨⟨free, past, later le, same⟩, nofun, nofun⟩
  | start call =>
    cases state with
    | closed => exact ⟨sound, fun _ _ _ => sound, nofun⟩
    | halfOpen => exact ⟨sound, fun _ _ _ => sound.1, nofun⟩
    | opened =>
      obtain ⟨⟨none, free⟩, time, past, rfl, last⟩ := sound
      simp only [StaysOpen, next, enters, record, apply, checkAllowed]
      split
      next waited =>
        have recovered : ∀ past ∈ probing.openedAt, past + config.recoveryTimeout ≤ clock := by
          rintro _ opening
          cases last.symm.trans opening
          dsimp only at past
          omega
        have clean : false ∉ probing.outcomes := List.eq_nil_iff_forall_not_mem.mp none false
        exact ⟨⟨recovered, clean, Nat.zero_le _⟩, fun _ _ _ => recovered, nofun⟩
      · refine ⟨⟨⟨none, fun other => ?_⟩, time, past, rfl, last⟩, ?_, nofun⟩
        · exact (update_apply ..).trans (ite_eq_left_iff.mpr fun _ => free other)
        · rintro _ ⟨⟩ passed
          cases (update_self ..).symm.trans passed
  | succeed call =>
    simp only [StaysOpen, next, enters, record, apply]
    cases out : inner call with
    | false => cases state <;> exact ⟨sound, nofun, nofun⟩
    | true =>
      cases state with
      | closed => exact ⟨sound, nofun, nofun⟩
      | opened => cases (inTime out nofun).symm.trans (sound.1.2 call)
      | halfOpen =>
        obtain ⟨recovered, clean, counted⟩ := sound
        have probe : probing.probes call = true := inTime out nofun
        have cleanly : false ∉ true :: probing.outcomes := by simpa using clean
        simp only [probe, recordSuccess, if_true]
        split
        next enough =>
          have total := Nat.le_trans enough (Nat.succ_le_succ counted)
          exact ⟨recovered, nofun, fun _ => ⟨total, cleanly⟩⟩
        · exact ⟨⟨recovered, cleanly, Nat.succ_le_succ counted⟩, nofun, nofun⟩
  | fail call error =>
    simp only [StaysOpen, next, enters, record, apply]
    cases out : inner call with
    | false => cases state <;> exact ⟨sound, nofun, nofun⟩
    | true =>
      simp only [recordFailure]
      cases transient : isTransient error with
      | false =>
        rw [Bool.and_false]
        cases state <;> exact ⟨sound, nofun, nofun⟩
      | true =>
        cases state with
        | closed =>
          simp only [if_true]
          split
          · exact ⟨⟨⟨rfl, fun _ => rfl⟩, clock, Nat.le_refl _, rfl, rfl⟩, nofun, nofun⟩
          · exact ⟨sound, nofun, nofun⟩
        | halfOpen => exact ⟨⟨⟨rfl, fun _ => rfl⟩, clock, Nat.le_refl _, rfl, rfl⟩, nofun, nofun⟩
        | opened =>
          rw [sound.1.2 call]
          exact ⟨sound, nofun, nofun⟩

/-- While only probes succeed with the breaker not closed, it stays open as long as it should. -/
theorem providerRuns.stays_open
    (reached : (providerRuns ι config).Reachable SucceedsInTime run) (label : ProviderLabel ι)
    (inTime : SucceedsInTime run label) : StaysOpen config run label := by
  refine (Sound.step ?_ label inTime).2
  refine reached.invariant (Sound config) ?_ ?_
  · rintro _ rfl
    exact nofun
  · rintro before label _ sound inTime rfl
    exact (sound.step label inTime).1

/-! ## The counters -/

/-- The time of opening is kept while the breaker is not closed, and a counter that still counts
is below its limit, or below one. -/
structure BreakerState.Bounded (breaker : BreakerState) (config : CircuitBreakerConfig) : Prop where
  timed : breaker.openedAt.isSome = true ↔ breaker.state ≠ .closed
  failures : breaker.state = .closed → breaker.consecutiveFailures < max 1 config.failureThreshold
  successes : breaker.state = .halfOpen →
    breaker.halfOpenSuccesses < max 1 config.halfOpenSuccessesNeeded

theorem BreakerState.Bounded.step {state : CircuitBreakerProvider ι}
    (bounded : state.breaker.Bounded config) (label : ProviderLabel ι) :
    (state.apply config label).breaker.Bounded config := by
  obtain ⟨⟨kind, failures, openedAt, successes⟩, clock, inner⟩ := state
  obtain ⟨timed, below, probing⟩ := bounded
  unfold apply
  cases label with
  | wait => exact ⟨timed, below, probing⟩
  | start => cases kind <;> cases openedAt <;> constructor <;> grind [checkAllowed]
  | succeed => cases kind <;> constructor <;> grind [recordSuccess]
  | fail => cases kind <;> constructor <;> grind [recordFailure]

/-- Late outcomes do not break the counters either. -/
theorem providerRuns.bounded (config : CircuitBreakerConfig) (labels : List (ProviderLabel ι)) :
    (labels.foldl (next config) fresh).1.breaker.Bounded config := by
  refine labels.foldlRecOn (motive := fun run => run.1.breaker.Bounded config) (next config) ?_ ?_
  · constructor <;> grind [fresh, BreakerState.new]
  · exact fun _ bounded label _ => bounded.step label

/-! ## A late success -/

/-- A failure opens the breaker and a success of a probe closes it. -/
def sampleConfig : CircuitBreakerConfig := ⟨1, 30, 1⟩

def after (labels : List (ProviderLabel Bool)) : ProviderRun Bool :=
  labels.foldl (next sampleConfig) fresh

theorem providerRuns.probe_closes :
    let run := after [.start true, .fail true .http, .wait 30, .start true]
    run.1.enters sampleConfig (.succeed true) .closed = true ∧
      StaysOpen sampleConfig run (.succeed true) := by
  have reached : (providerRuns Bool sampleConfig).Reachable SucceedsInTime fresh := .start rfl
  exact ⟨rfl, providerRuns.stays_open (reached.followAllowed
    [.start true, .fail true .http, .wait 30, .start true]
      ⟨trivial, trivial, trivial, trivial, trivial⟩) _ fun _ _ => rfl⟩

/-- The other call that was out succeeds: the breaker closes and the next call is passed on,
both at the time it opened. -/
theorem providerRuns.late_success_closes :
    let run := after [.start true, .start false, .fail true .http]
    let closed := after [.start true, .start false, .fail true .http, .succeed false]
    (providerRuns Bool sampleConfig).Reachable anyStep run ∧
      ¬StaysOpen sampleConfig run (.succeed false) ∧
      (providerRuns Bool sampleConfig).Reachable anyStep closed ∧
      ¬StaysOpen sampleConfig closed (.start true) := by
  have reached : ∀ labels, (providerRuns Bool sampleConfig).Reachable anyStep
      (after labels) := (System.Reachable.start rfl).follow
  refine ⟨reached _, fun stays => ?_, reached _, fun stays => ?_⟩
  · exact absurd (stays.2 rfl).1 (by decide)
  · exact absurd (stays.1 true rfl rfl 0 rfl) (by decide)

end Ironclaw.Llm
