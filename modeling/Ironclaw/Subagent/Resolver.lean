import Ironclaw.Subagent.CloseEdge

/-!
# A parent, its children and the resolver

The parent's side of a blocking spawn, from the first edge to the blocked loop exit with its
evidence check, and the resolver's handling of the children's terminal events.  Both sides
are programs whose accesses to the edge files and to the turn store interleave with each
other and with other calls on the store.
-/

namespace Ironclaw.Subagent

open HostApi Lib Turns EdgeTerminalKind

/-! ## Outside inputs -/

/-- What a child's thread says about its spawn, as far as a lost edge is rebuilt from it. -/
structure SubagentThreadMetadata where
  parentRunId : TurnRunId
  parentThreadId : ThreadId
  treeRootRunId : TurnRunId
  childRunId : TurnRunId
  mode : SpawnSubagentMode
  gateRef : GateRef

structure ResolverEnv where
  /-- The text of a run identifier. -/
  display : TurnRunId → String
  /-- The metadata of a child's thread, if it parses as a subagent's. -/
  threadMetadata : TurnScope → Option SubagentThreadMetadata
  /-- `recover_owner_user_id`, asked for an event that names no owner. -/
  recoverOwner : TurnLifecycleEvent → Except TurnError UserId
  /-- The bytes that `update_capability_result` writes for an edge. -/
  resultByteLen : AwaitEdge → Nat

namespace ResolverEnv

variable (env : ResolverEnv)

/-- A reference text made of a tag and the two run identifiers. -/
def pairText (tag : String) (parentRunId childRunId : TurnRunId) : String :=
  tag ++ ":" ++ env.display parentRunId ++ ":" ++ env.display childRunId

variable (parentRunId childRunId : TurnRunId)

def sourceBindingRef : SourceBindingRef := ⟨env.pairText "subagent-source" parentRunId childRunId⟩

def replyTargetBindingRef : ReplyTargetBindingRef :=
  ⟨env.pairText "subagent-reply" parentRunId childRunId⟩

def submitKey : IdempotencyKey := ⟨env.pairText "subagent-submit" parentRunId childRunId⟩

def resumeKey : IdempotencyKey := ⟨env.pairText "subagent-resume" parentRunId childRunId⟩

end ResolverEnv

/-- The time of a call, and the order in which a directory listing names its files. -/
structure CallInput where
  now : TurnTimestamp
  names : List TurnRunId

/-- `list_group` after the listing: one file is read and kept if it shares the gate. -/
def extendGroup (gateRef : GateRef) (edges : EdgeDir) (name : TurnRunId)
    (group : List (TurnRunId × AwaitEdge)) : List (TurnRunId × AwaitEdge) :=
  match edges.get name with
  | some file => if file.value.gateRef = gateRef then group ++ [(name, file.value)] else group
  | none => group

/-! ## The parent -/

/-- One child of the spawn and what its submission takes from outside. -/
structure ChildSpawn where
  childRunId : TurnRunId
  childScope : TurnScope
  acceptedMessageRef : AcceptedMessageRef
  requestedRunProfile : String
  receivedAt : TurnTimestamp
  context : CallContext

/-- A parent run that spawns children on one gate and then blocks on it. -/
structure BlockingSpawn where
  scope : TurnScope
  actor : TurnActor
  turnId : TurnId
  runId : TurnRunId
  treeRootRunId : TurnRunId
  gateRef : GateRef
  maxTreeDescendants : Nat
  children : List ChildSpawn
  spawns : children ≠ []
  runnerId : TurnRunnerId
  leaseToken : TurnLeaseToken
  checkpointId : TurnCheckpointId
  stateRef : LoopCheckpointStateRef
  blockedActivityId : Option CapabilityActivityId

/-- The answer of `verify_blocked_evidence`, with the check that failed. -/
inductive BlockedEvidence where
  | verified
  | noAwaitedChild
  | checkpointMismatch
  deriving DecidableEq

namespace BlockingSpawn

variable (env : ResolverEnv) (spawn : BlockingSpawn)

def childIds : List TurnRunId := spawn.children.map ChildSpawn.childRunId

/-- The edge that `record_awaited_child` opens. -/
def awaitedEdge (child : ChildSpawn) : AwaitEdge where
  parentRunContext := ⟨spawn.scope, some spawn.actor, spawn.runId⟩
  treeRootRunId := spawn.treeRootRunId
  gateRef := spawn.gateRef
  sourceBindingRef := env.sourceBindingRef spawn.runId child.childRunId
  replyTargetBindingRef := env.replyTargetBindingRef spawn.runId child.childRunId
  mode := .blocking
  state := .opened
  terminalKind := none
  terminalByteLen := none
  terminalReason := none
  reservationRelease := .unclaimed

def childRequest (child : ChildSpawn) : SubmitChildRunRequest where
  parentScope := spawn.scope
  parentRunId := spawn.runId
  childScope := child.childScope
  actor := spawn.actor
  acceptedMessageRef := child.acceptedMessageRef
  sourceBindingRef := env.sourceBindingRef spawn.runId child.childRunId
  replyTargetBindingRef := env.replyTargetBindingRef spawn.runId child.childRunId
  requestedRunProfile := some child.requestedRunProfile
  idempotencyKey := env.submitKey spawn.runId child.childRunId
  receivedAt := child.receivedAt
  requestedRunId := some child.childRunId
  spawnTreeDescendantCap := spawn.maxTreeDescendants

/-- `get_loop_checkpoint` for the checkpoint the exit names. -/
def loopCheckpoint (turns : Inner) : Option LoopCheckpointRecord :=
  (turns.loopCheckpoints.get spawn.checkpointId).filter fun record =>
    record.scope = spawn.scope && record.turnId = spawn.turnId && record.runId = spawn.runId &&
      record.checkpointId = spawn.checkpointId

/-- The checkpoint was taken before blocking on this gate. -/
def checkpointMatches (turns : Inner) : Bool :=
  (spawn.loopCheckpoint turns).any fun checkpoint =>
    checkpoint.kind = .beforeBlock && checkpoint.stateRef = spawn.stateRef &&
      checkpoint.gateRef = some spawn.gateRef

/-- `LoopExit::validate` for a blocked exit: without evidence it fails the run. -/
def exitMapping : BlockedEvidence → LoopExitMapping
  | .verified =>
    .runnerOutcome (.blocked spawn.checkpointId spawn.stateRef
      (.awaitDependentRun spawn.gateRef) spawn.blockedActivityId)
  | .noAwaitedChild | .checkpointMismatch =>
    .runnerOutcome (.failed (.fromTrustedStatic "driver_protocol_violation"))

end BlockingSpawn

/-- The next access of the parent. -/
inductive ParentPhase where
  /-- The edges of these children are to be opened. -/
  | spawning (todo : List ChildSpawn)
  | submitting (child : ChildSpawn) (rest : List ChildSpawn)
  | spawnFailed (todo : List ChildSpawn)
  /-- `has_awaited_child_gate` reads the listed edges. -/
  | verifying (names : List TurnRunId) (group : List (TurnRunId × AwaitEdge))
  | checkpointing
  | applying (evidence : BlockedEvidence)
  | exited (evidence : BlockedEvidence)
  | exitFailed

namespace ParentPhase

def isExited : ParentPhase → Bool
  | .exited _ => true
  | _ => false

def unopened : ParentPhase → List TurnRunId
  | .spawning todo | .submitting _ todo | .spawnFailed todo => todo.map ChildSpawn.childRunId
  | _ => []

def unsubmitted : ParentPhase → List TurnRunId
  | .spawning todo | .spawnFailed todo => todo.map ChildSpawn.childRunId
  | .submitting child rest => child.childRunId :: rest.map ChildSpawn.childRunId
  | _ => []

def run (env : ResolverEnv) (spawn : BlockingSpawn) (input : CallInput) (world : EdgeWorld) :
    ParentPhase → EdgeWorld × ParentPhase
  | .spawning (child :: rest) =>
    -- An edge that is already there is left alone.
    ({ world with
        edges := (world.edges.put child.childRunId (spawn.awaitedEdge env child) none).2 },
      .submitting child rest)
  | .spawning [] => (world, .verifying input.names [])
  | .submitting child rest =>
    match world.turns.submitChildTurn child.context (spawn.childRequest env child) with
    | (some (.ok _), turns) => ({ world with turns }, .spawning rest)
    | (some (.error _), turns) => ({ world with turns }, .spawnFailed (child :: rest))
    | (none, turns) => ({ world with turns }, .submitting child rest)
  | .spawnFailed todo => (world, .spawnFailed todo)
  | .verifying (name :: rest) group =>
    (world, .verifying rest (extendGroup spawn.gateRef world.edges name group))
  | .verifying [] group =>
    (world, if group.any (fun member => member.2.mode = .blocking) then .checkpointing
      else .applying .noAwaitedChild)
  | .checkpointing =>
    (world, .applying (if spawn.checkpointMatches world.turns then .verified
      else .checkpointMismatch))
  | .applying evidence =>
    match world.turns.applyValidatedLoopExit input.now
        ⟨spawn.runId, spawn.runnerId, spawn.leaseToken⟩ (spawn.exitMapping evidence) none with
    | (.ok _, turns) => ({ world with turns }, .exited evidence)
    | (.error _, turns) => ({ world with turns }, .exitFailed)
  | .exited evidence => (world, .exited evidence)
  | .exitFailed => (world, .exitFailed)

end ParentPhase

/-! ## The resolver -/

inductive ResolveOutcome where
  | resumed
  | drained
  | abandoned
  | alreadyClosed
  | notApplicable

/-- Every error reaches the caller as `Unavailable` or as the turn store's own error. -/
inductive ResolveError where
  | turn (error : TurnError)
  | store (error : AwaitEdgeStoreError)
  | service

def isBenignAlreadyResumed : TurnError → Bool
  | .invalidTransition .queued _ | .invalidTransition .running _
  | .invalidTransition .completed _ => true
  | _ => false

/-- The child's record, as the resolver looks it up, names the parent. -/
def hasLineage (parentRunId : TurnRunId) (event : TurnLifecycleEvent) (turns : Inner) : Bool :=
  ((turns.records.get event.runId).filter fun record => record.scope = event.scope).any
    fun record => record.parentRunId = some parentRunId && 0 < record.subagentDepth

section

variable (env : ResolverEnv) (parentRunId : TurnRunId)

def recoveredGateRef (metadata : SubagentThreadMetadata) (childRunId : TurnRunId) : GateRef :=
  match metadata.mode with
  | .blocking => metadata.gateRef
  | .background => ⟨"gate:subagent-bg-" ++ env.display childRunId⟩

/-- The edge of a child, from its thread's metadata and the owner of the event. -/
def reconstructEdge (event : TurnLifecycleEvent) (owner : UserId) : Option AwaitEdge :=
  match env.threadMetadata event.scope with
  | none => none
  | some metadata =>
    if metadata.childRunId ≠ event.runId ∨ metadata.parentRunId ≠ parentRunId then none
    else
      some
        { parentRunContext :=
            { scope :=
                { event.scope with
                  threadId := metadata.parentThreadId
                  threadOwner := .explicitUser owner }
              actor := some ⟨owner⟩
              runId := parentRunId }
          treeRootRunId := metadata.treeRootRunId
          gateRef := recoveredGateRef env metadata event.runId
          sourceBindingRef := env.sourceBindingRef parentRunId event.runId
          replyTargetBindingRef := env.replyTargetBindingRef parentRunId event.runId
          mode := metadata.mode
          state := .opened
          terminalKind := none
          terminalByteLen := none
          terminalReason := none
          reservationRelease := .unclaimed }

/-- The edge that `settle` writes. -/
def AwaitEdge.settle (edge : AwaitEdge) (event : TurnLifecycleEvent) (byteLen : Nat) : AwaitEdge :=
  { edge with
    state := .settled
    terminalKind := fromStatus event.status
    terminalByteLen := some byteLen
    terminalReason := event.sanitizedReason }

def resumeRequest (edge : AwaitEdge) (actor : TurnActor) (childRunId : TurnRunId) :
    ResumeTurnRequest where
  scope := edge.parentRunContext.scope
  actor
  runId := parentRunId
  gateResolutionRef := edge.gateRef
  sourceBindingRef := edge.sourceBindingRef
  replyTargetBindingRef := edge.replyTargetBindingRef
  idempotencyKey := env.resumeKey parentRunId childRunId
  precondition := .blockedDependentRunGate
  resumeDisposition := none

/-- `resume_parent`: a refusal in the benign set counts as done. -/
def resumeParent (now : TurnTimestamp) (edge : AwaitEdge) (childRunId : TurnRunId)
    (turns : Inner) : Except TurnError Unit × Inner :=
  match edge.parentRunContext.actor with
  | none => (.error (.invalidRequest "subagent parent run context missing actor for resume"), turns)
  | some actor =>
    match turns.resumeTurn now (resumeRequest env parentRunId edge actor childRunId) with
    | (.ok _, turns) => (.ok (), turns)
    | (.error error, turns) =>
      (if isBenignAlreadyResumed error then .ok () else .error error, turns)

end

/-- The next access of a `handle_child_terminal` run.  The accesses of other services (result
writer, thread service, goal store) change nothing here and are steps that may fail. -/
inductive HandlerPhase where
  | lookup
  | recoveringOwner
  | peeking (owner : UserId)
  | reconstructing (owner : UserId)
  | opening (edge : AwaitEdge)
  | settlePeeking
  | writingResult (edge : AwaitEdge)
  | settleReading (byteLen : Nat)
  | settleWriting (byteLen : Nat) (seen : Cell AwaitEdge)
  | settleRereading
  | drainPeeking
  | listing (edge : AwaitEdge)
  | scanning (edge : AwaitEdge) (names : List TurnRunId) (group : List (TurnRunId × AwaitEdge))
  | transcribing (edge : AwaitEdge) (group : List (TurnRunId × AwaitEdge))
  | resuming (edge : AwaitEdge) (group : List (TurnRunId × AwaitEdge))
  | closing (closer : Closer) (member : TurnRunId × AwaitEdge)
      (rest : List (TurnRunId × AwaitEdge))
  | ended (result : Except ResolveError ResolveOutcome)
  | crashed

namespace HandlerPhase

def isHandled : HandlerPhase → Bool
  | .ended (.ok _) => true
  | _ => false

/-- The members of the group are closed one after another. -/
def closeNext : List (TurnRunId × AwaitEdge) → HandlerPhase
  | [] => .ended (.ok .resumed)
  | member :: rest => .closing .reading member rest

/-- `settle_and_maybe_drain` after its peek. -/
def afterSettlePeek : Option (Cell AwaitEdge) → HandlerPhase
  | none => .ended (.ok .alreadyClosed)
  | some file => if file.value.state = .opened then .writingResult file.value else .drainPeeking

/-- `settle` after its read; an edge that is gone or no longer open is left alone. -/
def afterSettleRead (byteLen : Nat) : Option (Cell AwaitEdge) → HandlerPhase
  | none => .drainPeeking
  | some file => if file.value.state = .opened then .settleWriting byteLen file else .drainPeeking

/-- `drain_settled_group` after its peek. -/
def afterDrainPeek : Option (Cell AwaitEdge) → HandlerPhase
  | none => .ended (.ok .alreadyClosed)
  | some file =>
    if file.value.state = .settled then .listing file.value else .ended (.ok .alreadyClosed)

/-- The group has been read: an open sibling ends the run. -/
def afterScan (edge : AwaitEdge) (group : List (TurnRunId × AwaitEdge)) : HandlerPhase :=
  if group.any (fun member => member.2.state = .opened) then .ended (.ok .alreadyClosed)
  else .transcribing edge group

def run (env : ResolverEnv) (parentRunId : TurnRunId) (event : TurnLifecycleEvent)
    (input : CallInput) (world : EdgeWorld) : HandlerPhase → EdgeWorld × HandlerPhase
  | .lookup =>
    -- The edges of another parent are in another directory.
    (world, if hasLineage parentRunId event world.turns then .recoveringOwner
      else .ended (.ok .notApplicable))
  | .recoveringOwner =>
    match event.ownerUserId.elim (env.recoverOwner event) .ok with
    | .ok owner => (world, .peeking owner)
    | .error error => (world, .ended (.error (.turn error)))
  | .peeking owner =>
    (world, if (world.edges.get event.runId).isNone then .reconstructing owner
      else .settlePeeking)
  | .reconstructing owner =>
    match reconstructEdge env parentRunId event owner with
    | none => (world, .ended (.ok .notApplicable))
    | some edge => (world, .opening edge)
  | .opening edge =>
    ({ world with edges := (world.edges.put event.runId edge none).2 }, .settlePeeking)
  | .settlePeeking => (world, afterSettlePeek (world.edges.get event.runId))
  | .writingResult edge => (world, .settleReading (env.resultByteLen edge))
  | .settleReading byteLen => (world, afterSettleRead byteLen (world.edges.get event.runId))
  | .settleWriting byteLen seen =>
    match world.edges.put event.runId (seen.value.settle event byteLen)
        (some seen.version) with
    | (some _, edges) => ({ world with edges }, .drainPeeking)
    | (none, _) => (world, .settleRereading)
  | .settleRereading => (world, .drainPeeking)
  | .drainPeeking => (world, afterDrainPeek (world.edges.get event.runId))
  | .listing edge => (world, .scanning edge input.names [])
  | .scanning edge (name :: rest) group =>
    (world, .scanning edge rest (extendGroup edge.gateRef world.edges name group))
  | .scanning edge [] group => (world, afterScan edge group)
  | .transcribing edge group => (world, .resuming edge group)
  | .resuming edge group =>
    match resumeParent env parentRunId input.now edge event.runId world.turns with
    | (.ok (), turns) => ({ world with turns }, closeNext group)
    | (.error error, turns) => ({ world with turns }, .ended (.error (.turn error)))
  | .closing (.ended (.ok ())) _ rest => (world, closeNext rest)
  | .closing (.ended (.error error)) _ _ => (world, .ended (.error (.store error)))
  | .closing closer member rest =>
    let result := closer.run ⟨event.scope, parentRunId, member.2.treeRootRunId, member.1⟩ world
    (result.1, .closing result.2 member rest)
  | .ended result => (world, .ended result)
  | .crashed => (world, .crashed)

def failed : HandlerPhase → HandlerPhase
  | .closing (.ended _) _ _ => .ended (.error .service)
  | .closing closer member rest => .closing closer.failed member rest
  | .ended result => .ended result
  | .crashed => .crashed
  | _ => .ended (.error .service)

def crash : HandlerPhase → HandlerPhase
  | .ended result => .ended result
  | _ => .crashed

end HandlerPhase

structure Handler where
  event : TurnLifecycleEvent
  phase : HandlerPhase

/-! ## Everything together -/

structure GateState (ι : Type) extends EdgeWorld where
  parent : ParentPhase
  handlers : ι → Option Handler

inductive GateLabel (ι : Type) where
  /-- The next access of the parent. -/
  | parent (input : CallInput)
  /-- Another call on the turn store. -/
  | store (op : StoreOp)
  /-- A child's terminal event is handed to a new run of the resolver. -/
  | deliver (handler : ι) (event : TurnLifecycleEvent)
  | run (handler : ι) (input : CallInput)
  /-- The next access fails, with or without having taken effect. -/
  | fail (handler : ι) (input : CallInput) (applied : Bool)
  | crash (handler : ι)

/-- The parent is parked on the gate. -/
def BlockedOn (spawn : BlockingSpawn) (turns : Inner) : Prop :=
  (turns.records.get spawn.runId).any (fun record =>
    record.status = .blockedDependentRun && record.gateRef = some spawn.gateRef) = true

/-- The call repeats the resume that a child's handler makes. -/
def StoreOp.ResumesFor (env : ResolverEnv) (spawn : BlockingSpawn) : StoreOp → Prop
  | .resumeTurn _ request =>
    request.runId = spawn.runId ∧
      request.idempotencyKey ∈ spawn.childIds.map (env.resumeKey spawn.runId)
  | _ => False

namespace GateState

variable {ι : Type} (store : StoreEnv) (env : ResolverEnv) (spawn : BlockingSpawn)
  (state : GateState ι)

/-- The parent has exited and is not parked on the gate. -/
def HasLeft : Prop := state.parent.isExited = true ∧ ¬ BlockedOn spawn state.turns

/-- Other calls leave the parent alone until it has left the gate, and do not park it there
again. -/
def Elsewhere (op : StoreOp) : Prop :=
  ((op.apply store state.turns).records.get spawn.runId = state.turns.records.get spawn.runId ∧
      ¬ StoreOp.ResumesFor env spawn op) ∨
    state.HasLeft spawn ∧ ¬ BlockedOn spawn (op.apply store state.turns)

/-- A listing names exactly the files there are. -/
def Lists (input : CallInput) : Prop := input.names.toFinset = state.edges.keys

/-- A terminal event reports the status of a submitted child. -/
def Reports (event : TurnLifecycleEvent) : Prop :=
  event.runId ∈ spawn.childIds ∧ event.runId ∉ state.parent.unsubmitted ∧
    (fromStatus event.status).isSome = true ∧
    (state.turns.records.get event.runId).any (fun record =>
      record.scope = event.scope && record.status = event.status) = true

def Enabled : GateLabel ι → Prop
  | .parent input | .run _ input | .fail _ input _ => state.Lists input
  | .store op => op.Admissible state.turns ∧ state.Elsewhere store env spawn op
  | .deliver handler event => (state.handlers handler).isNone = true ∧ state.Reports spawn event
  | .crash _ => True

variable [DecidableEq ι]

def move (state : GateState ι) (handler : ι) (event : TurnLifecycleEvent)
    (result : EdgeWorld × HandlerPhase) : GateState ι :=
  { toEdgeWorld := result.1
    parent := state.parent
    handlers := Function.update state.handlers handler (some ⟨event, result.2⟩) }

def apply (state : GateState ι) : GateLabel ι → GateState ι
  | .parent input =>
    let result := state.parent.run env spawn input state.toEdgeWorld
    ⟨result.1, result.2, state.handlers⟩
  | .store op => { state with turns := op.apply store state.turns }
  | .deliver handler event => state.move handler event (state.toEdgeWorld, .lookup)
  | .run handler input =>
    match state.handlers handler with
    | none => state
    | some ⟨event, phase⟩ =>
      state.move handler event (phase.run env spawn.runId event input state.toEdgeWorld)
  | .fail handler input applied =>
    match state.handlers handler with
    | none => state
    | some ⟨event, phase⟩ =>
      state.move handler event
        (if applied then (phase.run env spawn.runId event input state.toEdgeWorld).1
          else state.toEdgeWorld, phase.failed)
  | .crash handler =>
    match state.handlers handler with
    | none => state
    | some ⟨event, phase⟩ => state.move handler event (state.toEdgeWorld, phase.crash)

end GateState

/-- A blocking spawn, its children's terminal events and everything else on the store, from a
given world. -/
def awaitGate (ι : Type) [DecidableEq ι] (store : StoreEnv) (env : ResolverEnv)
    (spawn : BlockingSpawn) (start : EdgeWorld) : System (GateState ι) (GateLabel ι) :=
  .ofAction (fun state => state = ⟨start, .spawning spawn.children, fun _ => none⟩)
    (GateState.Enabled store env spawn) (GateState.apply store env spawn)

def GateLabel.caller {ι : Type} : GateLabel ι → Option ι
  | .run handler _ | .fail handler _ true => some handler
  | _ => none

/-- No parent is stranded: once the terminal event of every child has been handled and the
parent has exited, it does not wait on the gate, and its exit had an awaited child as
evidence. -/
def NotStranded {ι : Type} (spawn : BlockingSpawn) (state : GateState ι) : Prop :=
  ∀ evidence, state.parent = .exited evidence →
    (∀ childRunId ∈ spawn.childIds, ∃ handler call, state.handlers handler = some call ∧
      call.event.runId = childRunId ∧ call.phase.isHandled = true) →
    ¬ BlockedOn spawn state.turns ∧ evidence ≠ .noAwaitedChild

/-- A handler finds the record of its child, and resumes the parent only after the parent has
exited. -/
def GateState.onTime {ι : Type} (spawn : BlockingSpawn) (state : GateState ι)
    (label : GateLabel ι) : Bool :=
  match label.caller.bind state.handlers with
  | some ⟨event, .lookup⟩ => hasLineage spawn.runId event state.turns
  | some ⟨_, .resuming _ _⟩ => state.parent.isExited
  | _ => true

end Ironclaw.Subagent
