import Ironclaw.Subagent.Waiting

/-!
# No parent is stranded by a fast child

A handler that makes its resume call before the parent has blocked takes the refusal for a
resume that was already made, and deletes the edges the parent's exit is about to look for.
If every resume call waits for the parent's exit, the child that settles last finds all its
siblings settled and resumes the parent.
-/

namespace Ironclaw.Subagent

open HostApi Lib Turns HandlerPhase GateState System HandlerStep Option

/-! ## Whole runs -/

/-- The gate and the children are new: no edge is named after a child or waits on the gate,
and no resume for a child has been answered. -/
structure FreshGate (env : ResolverEnv) (spawn : BlockingSpawn) (start : EdgeWorld) : Prop where
  edges : ∀ name file, start.edges.get name = some file →
    name ∉ spawn.childIds ∧ file.value.gateRef ≠ spawn.gateRef
  memory : ∀ childRunId ∈ spawn.childIds, ∀ scope, start.turns.resumeIdempotency.get
      ⟨scope, spawn.runId, env.resumeKey spawn.runId childRunId⟩ = none

namespace awaitGate

structure Invariant {ι : Type} (store : StoreEnv) (env : ResolverEnv) (spawn : BlockingSpawn)
    (state : GateState ι) : Prop where
  reached : (turnStore store).Reachable anyStep state.turns
  parent : state.parent.Fits spawn
  waits : ¬ state.HasLeft spawn → Waits env spawn state

variable {ι : Type} {store : StoreEnv} {env : ResolverEnv} {spawn : BlockingSpawn}
  {start : EdgeWorld} {state : GateState ι}

theorem Invariant.atStart (reached : (turnStore store).Reachable anyStep start.turns)
    (fresh : FreshGate env spawn start) : Invariant store env spawn
      (⟨start, .spawning spawn.children, fun _ => none⟩ : GateState ι) where
  reached
  parent _ listed := listed
  waits _ :=
    { edges :=
        { ours := fun childRunId listed file found =>
            absurd listed (fresh.edges childRunId file found).1
          others := fun name _ file found => (fresh.edges name file found).2 }
      opened := fun _ listed done => absurd listed done
      refusals := fun childRunId listed scope answer found => by
        rw [fresh.memory childRunId listed scope] at found
        cases found
      calls := fun _ _ stored => by cases stored
      owed := fun ⟨childRunId, listed, present⟩ _ => by
        obtain ⟨file, found⟩ := isSome_iff_exists.mp present
        exact absurd listed (fresh.edges childRunId file found).1 }

theorem Invariant.parentStep (invariant : Invariant store env spawn state) (input : CallInput)
    (lists : state.Lists input) : Invariant store env spawn
      ⟨(state.parent.run env spawn input state.toEdgeWorld).1,
        (state.parent.run env spawn input state.toEdgeWorld).2, state.handlers⟩ := by
  by_cases finished : state.parent.isExited = true
  · -- A parent that has exited does nothing more.
    cases phase : state.parent with
    | exited evidence =>
      have same : (⟨state.toEdgeWorld, .exited evidence, state.handlers⟩ : GateState ι) =
          state := by
        rw [← phase]
      simp only [ParentPhase.run]
      rw [same]
      exact invariant
    | _ =>
      rw [phase] at finished
      cases finished
  · have waits := invariant.waits fun left => finished left.1
    have step := ParentStep.run invariant.reached waits.refusals waits.edges waits.opened
      invariant.parent input lists
    exact ⟨step.reached, step.fits, fun _ => waits.step step.edges step.refusals step.opened
      step.submitted fun _ _ stored => .inl stored⟩

theorem Invariant.storeStep (invariant : Invariant store env spawn state) (op : StoreOp)
    (admissible : op.Admissible state.turns) (elsewhere : state.Elsewhere store env spawn op) :
    Invariant store env spawn { state with turns := op.apply store state.turns } where
  reached := turnStore.reachable_apply invariant.reached op admissible trivial
  parent := invariant.parent
  waits staying := by
    rcases elsewhere with ⟨same, other⟩ | ⟨left, away⟩
    · have waits := invariant.waits fun left =>
        staying ⟨left.1, fun blocked => left.2 (by rwa [BlockedOn, ← same])⟩
      exact ⟨waits.edges, waits.opened, waits.refusals.apply op other, waits.calls, waits.owed⟩
    · exact absurd ⟨left.1, away⟩ staying

variable {event : TurnLifecycleEvent} {phase : HandlerPhase}

theorem Invariant.accessStep (invariant : Invariant store env spawn state) {handler : ι}
    (stored : state.handlers handler = some ⟨event, phase⟩) (input : CallInput)
    (lineage : phase = .lookup → hasLineage spawn.runId event state.turns = true)
    (exited : ∀ edge group, phase = .resuming edge group → state.parent.isExited = true)
    (staying : state.parent.isExited = true →
      BlockedOn spawn (phase.run env spawn.runId event input state.toEdgeWorld).1.turns)
    (waits : Waits env spawn state) :
    HandlerStep env spawn event.runId state.toEdgeWorld phase
      (phase.run env spawn.runId event input state.toEdgeWorld) := by
  obtain ⟨listed, _, fits⟩ := waits.calls handler _ stored
  refine run invariant.reached waits.refusals waits.edges listed
    (waits.present stored) fits input lineage ?_
  intro edge group resuming
  have still := staying (exited edge group resuming)
  exact ⟨(run_turnsStep invariant.reached input).2 still, still⟩

theorem onTime_of_caller {label : GateLabel ι} {handler : ι} (caller : label.caller = some handler)
    (stored : state.handlers handler = some ⟨event, phase⟩)
    (allowed : state.onTime spawn label = true) :
    (phase = .lookup → hasLineage spawn.runId event state.turns = true) ∧
      ∀ edge group, phase = .resuming edge group → state.parent.isExited = true := by
  unfold onTime at allowed
  rw [caller, bind_some, stored] at allowed
  constructor
  · rintro rfl
    exact allowed
  · rintro edge _ rfl
    exact allowed

section

variable [DecidableEq ι] {handler : ι} {result : EdgeWorld × HandlerPhase}

/-- Every call after a move of one handler is that handler's or an old one. -/
theorem callStep_move (moved : CallStep spawn state result.1.edges handler ⟨event, result.2⟩)
    (other : ι) (call : Handler)
    (stored : (state.move handler event result).handlers other = some call) :
    CallStep spawn state result.1.edges other call := by
  by_cases same : other = handler
  · subst same
    simp only [move, Function.update_self, some.injEq] at stored
    exact stored ▸ moved
  · simp only [move, Function.update_of_ne same] at stored
    exact .inl stored

section

variable (invariant : Invariant store env spawn state)
include invariant

/-- A handler moves on: the parent is not parked by it, and as long as the parent waits the
access is as described. -/
theorem Invariant.moveStep (stored : state.handlers handler = some ⟨event, phase⟩)
    (turns : TurnsStep store spawn state.turns result.1.turns)
    (step : ¬ (state.move handler event result).HasLeft spawn → Waits env spawn state →
      HandlerStep env spawn event.runId state.toEdgeWorld phase result) :
    Invariant store env spawn (state.move handler event result) where
  reached := turns.1
  parent := invariant.parent
  waits staying := by
    have waits := invariant.waits fun left =>
      staying ⟨left.1, fun blocked => left.2 (turns.2 blocked)⟩
    obtain ⟨edges, refusals, fits, givesUp⟩ := step staying waits
    obtain ⟨listed, done, _⟩ := waits.calls handler _ stored
    refine waits.step edges refusals (fun _ _ done => .inl done) (fun _ pending => pending)
      (callStep_move (.inr ⟨listed, done, fits, fun gaveUp => ?_⟩))
    rcases givesUp gaveUp with before | opened
    · exact .inl ⟨_, stored, rfl, before⟩
    · exact .inr opened

theorem Invariant.deliverStep (reports : state.Reports spawn event) :
    Invariant store env spawn (state.move handler event (state.toEdgeWorld, .lookup)) where
  __ := invariant
  waits staying := by
    have waits := invariant.waits staying
    refine waits.step (.refl spawn state.edges) waits.refusals (fun _ _ done => .inl done)
      (fun _ pending => pending) (callStep_move (.inr ⟨reports.1, reports.2.1, trivial, ?_⟩))
    intro gaveUp
    cases gaveUp

theorem Invariant.apply (label : GateLabel ι) (allowed : state.onTime spawn label = true)
    (enabled : state.Enabled store env spawn label) :
    Invariant store env spawn (state.apply store env spawn label) := by
  cases label with
  | parent input => exact invariant.parentStep input enabled
  | store op => exact invariant.storeStep op enabled.1 enabled.2
  | deliver => exact invariant.deliverStep enabled.2
  | run handler input =>
    dsimp only [GateState.apply]
    cases stored : state.handlers handler with
    | none => exact invariant
    | some call =>
      obtain ⟨lineage, exited⟩ := onTime_of_caller rfl stored allowed
      refine invariant.moveStep stored
        (run_turnsStep invariant.reached input) fun staying waits => ?_
      exact invariant.accessStep stored input lineage exited
        (fun finished => not_not.mp fun away => staying ⟨finished, away⟩) waits
  | fail handler input applied =>
    dsimp only [GateState.apply]
    cases stored : state.handlers handler with
    | none => exact invariant
    | some call =>
      cases applied with
      | true =>
        obtain ⟨lineage, exited⟩ := onTime_of_caller rfl stored allowed
        refine invariant.moveStep stored
          (run_turnsStep invariant.reached input) fun staying waits => ?_
        exact (invariant.accessStep stored input lineage exited
          (fun finished => not_not.mp fun away => staying ⟨finished, away⟩) waits).failed
            (waits.calls handler _ stored).2.2
      | false =>
        refine invariant.moveStep stored (.refl invariant.reached) fun _ waits => ?_
        have fits := (waits.calls handler _ stored).2.2
        exact (read waits.refusals fits .inl).failed fits
  | crash handler =>
    dsimp only [GateState.apply]
    cases stored : state.handlers handler with
    | none => exact invariant
    | some call =>
      refine invariant.moveStep stored (.refl invariant.reached) fun _ waits => ?_
      exact .read waits.refusals
        (fits_crash (waits.calls handler _ stored).2.2) fun gaveUp =>
          .inl (givesUp_crash gaveUp)

end

/-- No parent is stranded in a run in which every handler finds its child's record and
resumes the parent only after the parent has exited. -/
theorem not_stranded (reachedStart : (turnStore store).Reachable anyStep start.turns)
    (fresh : FreshGate env spawn start) (reached : (awaitGate ι store env spawn start).Reachable
      (fun state label => state.onTime spawn label = true) state) :
    NotStranded spawn state := by
  have invariant := reached.invariant (Invariant store env spawn) ?_ ?_
  · intro evidence exited handled
    have fits := invariant.parent
    rw [exited] at fits
    refine ⟨fun blocked => ?_, fits⟩
    have waits := invariant.waits fun left => left.2 blocked
    exact waits.not_handled (by rw [exited]; rfl) handled
  · rintro _ rfl
    exact .atStart reachedStart fresh
  · rintro before label _ invariant allowed ⟨enabled, rfl⟩
    exact invariant.apply label allowed enabled

end

/-! ## Runs by evaluation -/

/-- A store call that draws no identifiers and resumes no run. -/
def isPlain : StoreOp → Bool
  | .retryTurn _ _ | .recoverExpiredLeases _ _ _ | .resumeTurn _ _ => false
  | _ => true

/-- A sufficient check for an enabled label. -/
def checked (store : StoreEnv) (spawn : BlockingSpawn) (state : GateState ι) : GateLabel ι → Bool
  | .parent input | .run _ input | .fail _ input _ =>
    decide (input.names.toFinset = state.edges.keys)
  | .store op =>
    isPlain op && decide ((op.apply store state.turns).records.get spawn.runId =
      state.turns.records.get spawn.runId)
  | .deliver handler event =>
    (state.handlers handler).isNone && decide (event.runId ∈ spawn.childIds) &&
      decide (event.runId ∉ state.parent.unsubmitted) &&
      (EdgeTerminalKind.fromStatus event.status).isSome &&
      (state.turns.records.get event.runId).any (fun record =>
        record.scope = event.scope && record.status = event.status)
  | .crash _ => true

theorem enabled_of_checked (env : ResolverEnv) {label : GateLabel ι}
    (passed : checked store spawn state label = true) : state.Enabled store env spawn label := by
  cases label with
  | parent input | run handler input | fail handler input =>
    have lists : input.names.toFinset = state.edges.keys := of_decide_eq_true passed
    exact lists
  | store op =>
    obtain ⟨plain, same⟩ := Bool.and_eq_true _ _ |>.mp passed
    have spec : op.Admissible state.turns ∧ ¬ StoreOp.ResumesFor env spawn op := by
      cases op with
      | retryTurn _ request | recoverExpiredLeases now request
      | resumeTurn => cases plain
      | _ => exact ⟨trivial, id⟩
    exact ⟨spec.1, .inl ⟨of_decide_eq_true same, spec.2⟩⟩
  | deliver =>
    simp only [checked, Bool.and_eq_true, decide_eq_true_eq] at passed
    obtain ⟨⟨⟨⟨idle, listed⟩, submitted⟩, terminal⟩, stored⟩ := passed
    refine ⟨idle, listed, submitted, terminal, ?_⟩
    simpa using stored
  | crash => trivial

/-! ## One child -/

open turnStore (claimedStore sampleContext sampleEnv sampleScope submittedStore_reachable)

def sampleChildScope : TurnScope := { sampleScope .actorFallback with threadId := ⟨"child"⟩ }

def sampleResolver : ResolverEnv where
  display runId := if runId = ⟨1⟩ then "parent" else "child"
  threadMetadata _ := none
  recoverOwner _ := .ok ⟨"user"⟩
  resultByteLen _ := 0

/-- A running parent that spawns one child. -/
def sampleSpawn : BlockingSpawn where
  scope := sampleScope .actorFallback
  actor := ⟨⟨"user"⟩⟩
  turnId := ⟨1⟩
  runId := ⟨1⟩
  treeRootRunId := ⟨1⟩
  gateRef := ⟨"gate:subagent"⟩
  maxTreeDescendants := 4
  children :=
    [{ childRunId := ⟨9⟩
       childScope := sampleChildScope
       acceptedMessageRef := ⟨"goal"⟩
       requestedRunProfile := "subagent"
       receivedAt := 0
       context := { sampleContext with freshTurnId := ⟨2⟩ } }]
  spawns := by decide
  runnerId := ⟨7⟩
  leaseToken := ⟨8⟩
  checkpointId := ⟨3⟩
  stateRef := ⟨"checkpoint:state"⟩
  blockedActivityId := none

def sampleStart : EdgeWorld where
  edges := Table.empty
  turns := claimedStore

theorem sampleStart_reachable : (turnStore sampleEnv).Reachable anyStep sampleStart.turns :=
  turnStore.reachable_apply (submittedStore_reachable.weaken fun _ _ _ => trivial)
    (.claimNextRun 0 ⟨⟨7⟩, ⟨8⟩, none⟩) trivial trivial

/-- The checkpoint that the blocked exit names. -/
def putCheckpoint : StoreOp :=
  .putLoopCheckpoint 0 ⟨3⟩
    { scope := sampleScope .actorFallback
      turnId := ⟨1⟩
      runId := ⟨1⟩
      stateRef := ⟨"checkpoint:state"⟩
      schemaId := "loop"
      schemaVersion := ⟨1⟩
      kind := .beforeBlock
      gateRef := some ⟨"gate:subagent"⟩ }

def claimChild : StoreOp := .claimNextRun 0 ⟨⟨17⟩, ⟨18⟩, none⟩

def completeChild : StoreOp := .completeRun 0 ⟨⟨9⟩, ⟨17⟩, ⟨18⟩⟩

def childCompleted : TurnLifecycleEvent where
  cursor := ⟨0⟩
  scope := sampleChildScope
  occurredAt := none
  ownerUserId := some ⟨"user"⟩
  runId := ⟨9⟩
  status := .completed
  kind := .completed
  blockedGate := none
  sanitizedReason := none
  retryable := none
  detail := none

def sampleRun (labels : List (GateLabel Unit)) : GateState Unit :=
  labels.foldl (apply sampleEnv sampleResolver sampleSpawn)
    ⟨sampleStart, .spawning sampleSpawn.children, fun _ => none⟩

def noEdge : CallInput := ⟨0, []⟩

def oneEdge : CallInput := ⟨0, [⟨9⟩]⟩

/-- The edge is opened, the child submitted and the checkpoint put. -/
def spawnLabels : List (GateLabel Unit) := [.parent noEdge, .parent oneEdge, .store putCheckpoint]

/-- The child runs to its end, and its event is handled until the edge is deleted. -/
def childLabels : List (GateLabel Unit) :=
  [.store claimChild, .store completeChild, .deliver () childCompleted] ++
    List.replicate 21 (.run () oneEdge) ++ List.replicate 2 (.run () noEdge)

/-- The parent lists the edges, checks its evidence and exits. -/
def blockLabels : List (GateLabel Unit) := List.replicate 5 (.parent oneEdge)

def slowState : GateState Unit := sampleRun (spawnLabels ++ blockLabels ++ childLabels)

/-- The child is handled first; then the parent finds no edge. -/
def fastState : GateState Unit :=
  sampleRun (spawnLabels ++ childLabels ++ List.replicate 3 (.parent noEdge))

/-- The parent exited and its evidence was refused because it found no edge. -/
def exitedWithoutChild (state : GateState Unit) : Bool :=
  match state.parent with
  | .exited evidence => evidence = .noAwaitedChild
  | _ => false

theorem evidence_of_exit {state : GateState Unit} (finished : exitedWithoutChild state = true) :
    ∃ evidence, state.parent = .exited evidence ∧ evidence = .noAwaitedChild := by
  unfold exitedWithoutChild at finished
  split at finished
  next evidence exited => exact ⟨evidence, exited, of_decide_eq_true finished⟩
  · cases finished

theorem sampleRun_reachable {guard : GateState Unit → GateLabel Unit → Prop}
    (labels : List (GateLabel Unit))
    (allowed : System.AllowedAlong (fun state label => guard state label ∧
        checked sampleEnv sampleSpawn state label = true)
      (apply sampleEnv sampleResolver sampleSpawn)
      ⟨sampleStart, .spawning sampleSpawn.children, fun _ => none⟩ labels) :
    (awaitGate Unit sampleEnv sampleResolver sampleSpawn sampleStart).Reachable guard
      (sampleRun labels) := by
  have first : (awaitGate Unit sampleEnv sampleResolver sampleSpawn
      sampleStart).Reachable guard ⟨sampleStart, .spawning sampleSpawn.children, fun _ => none⟩ :=
    .start rfl
  exact first.followEnabled labels (allowed.mono fun _ _ spec =>
    ⟨spec.1, enabled_of_checked sampleResolver spec.2⟩)

/-- The parent blocked before the child's event was handled: it is queued again. -/
theorem slow_child_resumes_parent :
    (slowState.turns.records.get ⟨1⟩).any (fun record => record.status = .queued) = true ∧
      NotStranded sampleSpawn slowState :=
  ⟨by decide +kernel, not_stranded sampleStart_reachable
    ⟨fun _ _ found => (nomatch found), fun _ _ _ => rfl⟩
    (sampleRun_reachable _ (by decide +kernel))⟩

/-- The child's event was handled while the parent was still running: the blocked exit finds
no edge and the run fails. -/
theorem fast_child_strands_parent :
    (awaitGate Unit turnStore.sampleEnv sampleResolver sampleSpawn sampleStart).Reachable
        anyStep fastState ∧
      (fastState.turns.records.get ⟨1⟩).any (fun record => record.status = .failed) = true ∧
      ¬ NotStranded sampleSpawn fastState := by
  refine ⟨sampleRun_reachable _ ?_, by decide +kernel, fun kept => ?_⟩
  · simp only [anyStep, true_and]
    decide +kernel
  · obtain ⟨evidence, exited, refused⟩ := @evidence_of_exit fastState (by decide +kernel)
    obtain ⟨call, stored, handled⟩ := (any_eq_true (fun call : Handler =>
      decide (call.event.runId = ⟨9⟩) && call.phase.isHandled) (fastState.handlers ())).mp
        (by decide +kernel)
    rw [Bool.and_eq_true, decide_eq_true_eq] at handled
    refine (kept evidence exited ?_).2 refused
    intro childRunId listed
    have own : childRunId = ⟨9⟩ := by simpa [BlockingSpawn.childIds, sampleSpawn] using listed
    exact ⟨(), call, stored, own ▸ handled.1, handled.2⟩

end awaitGate

end Ironclaw.Subagent
