import Ironclaw.Subagent.Resolver
import Ironclaw.Turns.Memory
import Ironclaw.Turns.RunChanges

/-!
# A parent that waits

What holds between the moment a blocking spawn opens its first edge and the moment its parent
leaves the gate: what a resume of a parked parent can do, how the edges of the gate move, what
each handler has established, and that the handlers of some child still owe a resume.
-/

namespace Ironclaw.Subagent

open HostApi Lib Turns HandlerPhase System Table Inner BlockedEvidence Option
open ParentPhase (applying spawning submitting verifying)

/-! ## The parent's record -/

section

variable {store : StoreEnv} {env : ResolverEnv} {spawn : BlockingSpawn} {before after : Inner}

theorem blockedOn_iff {turns : Inner} :
    BlockedOn spawn turns ↔ ∃ record, turns.records.get spawn.runId = some record ∧
      record.status = .blockedDependentRun ∧ record.gateRef = some spawn.gateRef := by
  unfold BlockedOn
  rw [any_eq_true]
  simp only [Bool.and_eq_true, decide_eq_true_eq]

theorem blockedOn_of_changed {change : TurnRunId → RunRecord → Prop}
    (changed : ChangedBy change before.records after.records)
    (unparked : ∀ runId record, change runId record → record.status.isBlocked = false)
    (blocked : BlockedOn spawn after) : BlockedOn spawn before := by
  obtain ⟨record, found, status, gate⟩ := blockedOn_iff.mp blocked
  rcases changed spawn.runId record found with earlier | new
  · exact blockedOn_iff.mpr ⟨record, earlier, status, gate⟩
  · have free := unparked _ _ new
    rw [status] at free
    cases free

/-- A remembered answer that makes a handler fail. -/
def Refusal (answer : Except TurnError ResumeTurnResponse) : Prop :=
  ∃ error, answer = .error error ∧ isBenignAlreadyResumed error = false

/-- The store remembers nothing but refusals under the resume keys of the children. -/
def OnlyRefusals (env : ResolverEnv) (spawn : BlockingSpawn) (turns : Inner) : Prop :=
  ∀ childRunId ∈ spawn.childIds, ∀ scope answer,
    turns.resumeIdempotency.get ⟨scope, spawn.runId, env.resumeKey spawn.runId childRunId⟩ =
      some answer → Refusal answer

theorem OnlyRefusals.apply (refusals : OnlyRefusals env spawn before) (op : StoreOp)
    (other : ¬ StoreOp.ResumesFor env spawn op) :
    OnlyRefusals env spawn (op.apply store before) := by
  intro childRunId listed scope answer found
  have unnamed : op.recallKey ≠
      some (.resume ⟨scope, spawn.runId, env.resumeKey spawn.runId childRunId⟩) := by
    refine fun named => other ?_
    cases op with
    | resumeTurn =>
      simp only [StoreOp.recallKey, some.injEq, RecallKey.resume.injEq,
        RunIdempotencyKey.mk.injEq] at named
      exact ⟨named.2.1, by rw [named.2.2]; exact List.mem_map_of_mem listed⟩
    | _ => simp [StoreOp.recallKey] at named
  rcases (op.apply_recalls store before).resume_kept unnamed with same | dropped
  · exact refusals childRunId listed scope answer (same.symm.trans found)
  · cases dropped.symm.trans found

/-! ## Resuming a parked parent -/

/-- A resume pinned to the dependent-run gate is refused for a reason of its own, with the
record left as it is, or takes the run off its gate. -/
theorem resumeTurnOnce_of_blocked (now : TurnTimestamp) {request : ResumeTurnRequest}
    (pinned : request.precondition = .blockedDependentRunGate) {record : RunRecord}
    (found : before.records.get request.runId = some record) (keyed : record.runId = request.runId)
    (blocked : record.status = .blockedDependentRun) :
    (Refusal (before.resumeTurnOnce now request).1 ∧
        (before.resumeTurnOnce now request).2.records.get request.runId = some record) ∨
      ∃ resumed, (before.resumeTurnOnce now request).2.records.get request.runId = some resumed ∧
        resumed.status = .queued := by
  have restored : ((before.removeRecord request.runId).insertRecord record.runId
      record).records.get request.runId = some record := by
    rw [← keyed]
    exact get_insert_self _ _ _
  unfold resumeTurnOnce
  rw [found]
  dsimp only
  split
  · exact .inl ⟨⟨_, rfl, rfl⟩, restored⟩
  split
  next unfit =>
    rw [pinned, blocked] at unfit
    cases unfit
  · iterate 2
      split
      · exact .inl ⟨⟨_, rfl, rfl⟩, restored⟩
    refine .inr ⟨resumedRecord request record
      (before.removeRecord request.runId).cursorAfter, ?_, rfl⟩
    rw [← keyed]
    exact get_insert_self _ _ _

theorem resumeTurn_remembers (now : TurnTimestamp) (request : ResumeTurnRequest)
    (key : RunIdempotencyKey) {answer : Except TurnError ResumeTurnResponse}
    (found : (before.resumeTurn now request).2.resumeIdempotency.get key = some answer) :
    before.resumeIdempotency.get key = some answer ∨
      answer = (before.resumeTurn now request).1 := by
  by_cases own : key = ⟨request.scope, request.runId, request.idempotencyKey⟩
  · subst own
    unfold resumeTurn at found ⊢
    dsimp only at found ⊢
    split at found
    · exact .inl found
    rename_i absent
    rcases get_dropOldest _ ((before.resumeTurnOnce now request).2.resumeIdempotency.insert
      ⟨request.scope, request.runId, request.idempotencyKey⟩ _) [] _ with stored | dropped
    · rw [get_insert_self] at stored
      exact .inr (some.inj (found.symm.trans stored))
    · cases dropped.symm.trans found
  · have recalls : before.Recalls (before.resumeTurn now request).2.memory _ :=
      resumeTurn_recalls now request
    have other : some (RecallKey.resume
        ⟨request.scope, request.runId, request.idempotencyKey⟩) ≠ some (.resume key) :=
      fun named => own (by simpa using named.symm)
    rcases recalls.resume_kept other with same | dropped
    · exact .inl (same.symm.trans found)
    · cases dropped.symm.trans found

theorem resumeTurn_of_blocked (reached : (turnStore store).Reachable anyStep before)
    (refusals : OnlyRefusals env spawn before) (blocked : BlockedOn spawn before)
    (now : TurnTimestamp) (edge : AwaitEdge) (actor : TurnActor) {childRunId : TurnRunId}
    (listed : childRunId ∈ spawn.childIds) (still : BlockedOn spawn (before.resumeTurn now
      (resumeRequest env spawn.runId edge actor childRunId)).2) :
    Refusal (before.resumeTurn now (resumeRequest env spawn.runId edge actor childRunId)).1 := by
  obtain ⟨record, found, status, _⟩ := blockedOn_iff.mp blocked
  have keyed : record.runId = spawn.runId := (turnStore.orderly reached).toAgreement.keyed found
  unfold resumeTurn at still ⊢
  dsimp only at still ⊢
  split
  next answer remembered => exact refusals childRunId listed _ answer remembered
  next absent =>
    simp only [absent] at still
    rcases @resumeTurnOnce_of_blocked before now (resumeRequest env spawn.runId edge actor
      childRunId) rfl record found keyed status with ⟨refused, _⟩ | ⟨resumed, present, queued⟩
    · exact refused
    obtain ⟨_, same, parked, _⟩ := blockedOn_iff.mp still
    cases same.symm.trans present
    rw [queued] at parked
    cases parked

/-- A handler's resume call that leaves the parent parked is an error, and leaves only
refusals behind. -/
theorem resumeParent_of_blocked (reached : (turnStore store).Reachable anyStep before)
    (refusals : OnlyRefusals env spawn before) (blocked : BlockedOn spawn before)
    (now : TurnTimestamp) (edge : AwaitEdge) {childRunId : TurnRunId}
    (listed : childRunId ∈ spawn.childIds)
    (still : BlockedOn spawn (resumeParent env spawn.runId now edge childRunId before).2) :
    (∃ error, (resumeParent env spawn.runId now edge childRunId before).1 = .error error) ∧
      OnlyRefusals env spawn (resumeParent env spawn.runId now edge childRunId before).2 := by
  unfold resumeParent at still ⊢
  cases present : edge.parentRunContext.actor with
  | none => exact ⟨⟨_, rfl⟩, refusals⟩
  | some actor =>
    simp only [present] at still
    have remembers := @resumeTurn_remembers before now
      (resumeRequest env spawn.runId edge actor childRunId)
    have spec := @resumeTurn_of_blocked store env spawn before reached refusals blocked now
      edge actor childRunId listed
    cases called : before.resumeTurn now
      (resumeRequest env spawn.runId edge actor childRunId) with
    | mk answer =>
      simp only [called] at still remembers spec ⊢
      cases answer with
      | ok =>
        obtain ⟨error, failed, _⟩ := spec still
        cases failed
      | error error =>
        have refused := spec still
        obtain ⟨_, same, harmful⟩ := refused
        cases same
        refine ⟨⟨error, by simp [harmful]⟩, ?_⟩
        intro other inGate scope stored kept
        rcases remembers _ kept with earlier | own
        · exact refusals other inGate scope stored earlier
        · rw [own]
          exact spec still

end

/-! ## The edges of the gate -/

def IsOpen (file : Option (Cell AwaitEdge)) : Prop :=
  ∃ current, file = some current ∧ current.value.state = .opened

def IsSettled (file : Option (Cell AwaitEdge)) : Prop :=
  ∃ current, file = some current ∧ current.value.state = .settled

theorem IsSettled.not_open {file : Option (Cell AwaitEdge)} (settled : IsSettled file) :
    ¬ IsOpen file := by
  rintro ⟨_, found, opened⟩
  obtain ⟨_, same, state⟩ := settled
  cases found.symm.trans same
  rw [opened] at state
  cases state

/-- An open edge was read; it is still there, or a later version is settled. -/
def SeenOpen (seen : Cell AwaitEdge) (file : Option (Cell AwaitEdge)) : Prop :=
  seen.value.state = .opened ∧
    (file = some seen ∨ ∃ current, file = some current ∧ current.value.state = .settled ∧
      seen.version < current.version)

inductive FileMove (spawn : BlockingSpawn) :
    Option (Cell AwaitEdge) → Option (Cell AwaitEdge) → Prop where
  | same (file : Option (Cell AwaitEdge)) : FileMove spawn file file
  | created {edge : AwaitEdge} (version : Nat) (gate : edge.gateRef = spawn.gateRef)
      (mode : edge.mode = .blocking) (opened : edge.state = .opened) :
      FileMove spawn none (some ⟨edge, version⟩)
  | settled {current : Cell AwaitEdge} {edge : AwaitEdge}
      (gate : edge.gateRef = current.value.gateRef) (mode : edge.mode = current.value.mode)
      (opened : current.value.state = .opened) (settled : edge.state = .settled) :
      FileMove spawn (some current) (some ⟨edge, current.version + 1⟩)

namespace FileMove

variable {spawn : BlockingSpawn} {before after : Option (Cell AwaitEdge)}

variable (move : FileMove spawn before after)
include move

theorem isSome (present : before.isSome = true) : after.isSome = true := by
  cases move with
  | same => exact present
  | created => cases present
  | settled => rfl

theorem isSettled (settled : IsSettled before) : IsSettled after := by
  cases move with
  | same => exact settled
  | created =>
    obtain ⟨_, found, _⟩ := settled
    cases found
  | settled _ _ _ new => exact ⟨_, rfl, new⟩

theorem seenOpen {seen : Cell AwaitEdge} (known : SeenOpen seen before) : SeenOpen seen after := by
  obtain ⟨wasOpen, here | ⟨current, found, settled, later⟩⟩ := known
  · subst here
    cases move with
    | same => exact ⟨wasOpen, .inl rfl⟩
    | settled gate mode opened new => exact ⟨wasOpen, .inr ⟨_, rfl, new, Nat.lt_succ_self _⟩⟩
  · subst found
    cases move with
    | same => exact ⟨wasOpen, .inr ⟨current, rfl, settled, later⟩⟩
    | settled _ _ opened =>
      rw [opened] at settled
      cases settled

theorem wasOpen_or_same (settled : IsSettled after) : IsOpen before ∨ after = before := by
  cases move with
  | same => exact .inr rfl
  | created _ gate _ opened => exact absurd ⟨_, rfl, opened⟩ settled.not_open
  | settled _ _ opened => exact .inl ⟨_, rfl, opened⟩

end FileMove

/-- The edges of the gate are those of its children, and each is open or settled. -/
structure GateEdges (spawn : BlockingSpawn) (edges : EdgeDir) : Prop where
  ours : ∀ childRunId ∈ spawn.childIds, ∀ file, edges.get childRunId = some file →
    file.value.gateRef = spawn.gateRef ∧ file.value.mode = .blocking ∧
      (file.value.state = .opened ∨ file.value.state = .settled)
  others : ∀ name, name ∉ spawn.childIds → ∀ file, edges.get name = some file →
    file.value.gateRef ≠ spawn.gateRef

/-- The edges of the children move, all other edges stay. -/
structure EdgeMove (spawn : BlockingSpawn) (before after : EdgeDir) : Prop where
  moved : ∀ name, FileMove spawn (before.get name) (after.get name)
  others : ∀ name, name ∉ spawn.childIds → after.get name = before.get name

section

variable {env : ResolverEnv} {spawn : BlockingSpawn} {edges after : EdgeDir}
  {childRunId : TurnRunId}

theorem EdgeMove.refl (spawn : BlockingSpawn) (edges : EdgeDir) : EdgeMove spawn edges edges :=
  ⟨fun _ => .same _, fun _ _ => rfl⟩

theorem EdgeMove.insert (listed : childRunId ∈ spawn.childIds) {file : Cell AwaitEdge}
    (move : FileMove spawn (edges.get childRunId) (some file)) :
    EdgeMove spawn edges (edges.insert childRunId file) := by
  constructor
  · intro name
    rw [get_insert]
    split
    next same => exact same ▸ move
    · exact .same _
  · intro _ other
    exact get_insert_of_ne _ _ fun same => other (same ▸ listed)

theorem GateEdges.moved (gate : GateEdges spawn edges) (move : EdgeMove spawn edges after) :
    GateEdges spawn after := by
  constructor
  · intro childRunId listed file found
    have step := move.moved childRunId
    rw [found] at step
    cases earlier : edges.get childRunId with
    | none =>
      rw [earlier] at step
      cases step with
      | created _ gate mode opened => exact ⟨gate, mode, .inl opened⟩
    | some current =>
      rw [earlier] at step
      have old := gate.ours childRunId listed current earlier
      cases step with
      | same => exact old
      | settled gate mode _ settled => exact ⟨gate.trans old.1, mode.trans old.2.1, .inr settled⟩
  · intro name other file found
    exact gate.others name other file ((move.others name other).symm.trans found)

theorem GateEdges.isOpen_or_isSettled (gate : GateEdges spawn edges)
    (listed : childRunId ∈ spawn.childIds) (present : (edges.get childRunId).isSome = true) :
    IsOpen (edges.get childRunId) ∨ IsSettled (edges.get childRunId) := by
  obtain ⟨file, found⟩ := isSome_iff_exists.mp present
  obtain ⟨_, _, opened | settled⟩ := gate.ours childRunId listed file found
  · exact .inl ⟨file, found, opened⟩
  · exact .inr ⟨file, found, settled⟩

theorem edgeMove_open (child : ChildSpawn) (listed : child ∈ spawn.children) :
    EdgeMove spawn edges (edges.put child.childRunId (spawn.awaitedEdge env child) none).2 ∧
      ((edges.put child.childRunId (spawn.awaitedEdge env child) none).2.get
        child.childRunId).isSome = true := by
  rcases Files.put_absent child.childRunId (spawn.awaitedEdge env child) edges with
    ⟨present, refused⟩ | ⟨absent, written⟩
  · rw [refused]
    exact ⟨.refl spawn edges, present⟩
  · rw [written]
    refine ⟨EdgeMove.insert (List.mem_map_of_mem listed) ?_, ?_⟩
    · rw [absent]
      exact .created 1 rfl rfl rfl
    · rw [get_insert_self]
      rfl

theorem edgeMove_settle (listed : childRunId ∈ spawn.childIds) {seen : Cell AwaitEdge}
    (known : SeenOpen seen (edges.get childRunId)) (event : TurnLifecycleEvent) (byteLen : Nat) :
    (edges.put childRunId (seen.value.settle event byteLen) (some seen.version) = (none, edges) ∧
        IsSettled (edges.get childRunId)) ∨
      ∃ version written, edges.put childRunId (seen.value.settle event byteLen)
          (some seen.version) = (some version, written) ∧
        EdgeMove spawn edges written ∧ IsSettled (written.get childRunId) := by
  obtain ⟨wasOpen, here | ⟨current, found, settled, _⟩⟩ := known
  · refine .inr ⟨_, _, if_pos (by rw [here]; rfl), ?_, ?_⟩
    · refine EdgeMove.insert listed ?_
      rw [here]
      exact .settled rfl rfl wasOpen rfl
    · rw [get_insert_self]
      exact ⟨_, rfl, rfl⟩
  · refine .inl ⟨if_neg ?_, current, found, settled⟩
    rw [found]
    simp only [map_some, some.injEq]
    omega

end

/-! ## The handlers while the parent waits -/

namespace HandlerPhase

/-- What a handler has established about its child's edge. -/
def Fits (spawn : BlockingSpawn) (file : Option (Cell AwaitEdge)) : HandlerPhase → Prop
  | .settleWriting _ seen => SeenOpen seen file
  | .settleRereading | .drainPeeking | .ended (.ok _) => IsSettled file
  | .listing edge | .scanning edge _ _ | .transcribing edge _ | .resuming edge _ =>
    edge.gateRef = spawn.gateRef ∧ IsSettled file
  | .reconstructing _ | .opening _ | .closing _ _ _ => False
  | _ => True

/-- The handler leaves the resume to another one: it has returned, or it has read an open
sibling. -/
def givesUp : HandlerPhase → Bool
  | .ended (.ok _) => true
  | .scanning _ _ group => group.any fun member => member.2.state = .opened
  | _ => false

variable {env : ResolverEnv} {spawn : BlockingSpawn} {phase : HandlerPhase}
  {before after : Option (Cell AwaitEdge)}

section

variable (fits : phase.Fits spawn before)
include fits

theorem Fits.moved (move : FileMove spawn before after) : phase.Fits spawn after := by
  cases phase with
  | settleWriting => exact move.seenOpen fits
  | settleRereading | drainPeeking => exact move.isSettled fits
  | listing | scanning | transcribing | resuming => exact ⟨fits.1, move.isSettled fits.2⟩
  | ended result =>
    cases result with
    | ok => exact move.isSettled fits
    | error => trivial
  | reconstructing | opening | closing => exact fits
  | _ => trivial

theorem Fits.isSettled (gaveUp : phase.givesUp = true) : IsSettled before := by
  cases phase with
  | scanning => exact fits.2
  | ended result =>
    cases result with
    | ok => exact fits
    | error => cases gaveUp
  | _ => cases gaveUp

theorem fits_failed : phase.failed.Fits spawn before := by
  cases phase with
  | ended => exact fits
  | closing => exact fits.elim
  | _ => trivial

theorem givesUp_failed (gaveUp : phase.failed.givesUp = true) : phase.givesUp = true := by
  cases phase with
  | ended => exact gaveUp
  | closing => exact fits.elim
  | _ => cases gaveUp

theorem fits_crash : phase.crash.Fits spawn before := by
  cases phase with
  | ended => exact fits
  | _ => trivial

end

theorem givesUp_crash (gaveUp : phase.crash.givesUp = true) : phase.givesUp = true := by
  cases phase with
  | ended => exact gaveUp
  | _ => cases gaveUp

/-! ### Reads -/

theorem fits_afterSettlePeek (state : IsOpen before ∨ IsSettled before) :
    (afterSettlePeek before).Fits spawn before ∧ (afterSettlePeek before).givesUp = false := by
  rcases state with ⟨current, rfl, opened⟩ | ⟨current, rfl, settled⟩
  · simp only [afterSettlePeek, opened, if_true]
    exact ⟨trivial, rfl⟩
  · simp only [afterSettlePeek, settled, reduceCtorEq, if_false]
    exact ⟨⟨current, rfl, settled⟩, rfl⟩

theorem fits_afterSettleRead (byteLen : Nat) (state : IsOpen before ∨ IsSettled before) :
    (afterSettleRead byteLen before).Fits spawn before ∧
      (afterSettleRead byteLen before).givesUp = false := by
  rcases state with ⟨current, rfl, opened⟩ | ⟨current, rfl, settled⟩
  · simp only [afterSettleRead, opened, if_true]
    exact ⟨⟨opened, .inl rfl⟩, rfl⟩
  · simp only [afterSettleRead, settled, reduceCtorEq, if_false]
    exact ⟨⟨current, rfl, settled⟩, rfl⟩

theorem fits_afterDrainPeek (settled : IsSettled before)
    (gate : ∀ current, before = some current → current.value.gateRef = spawn.gateRef) :
    (afterDrainPeek before).Fits spawn before ∧ (afterDrainPeek before).givesUp = false := by
  obtain ⟨current, rfl, state⟩ := settled
  simp only [afterDrainPeek, state, if_true]
  exact ⟨⟨gate current rfl, current, rfl, state⟩, rfl⟩

variable {edge : AwaitEdge} {group : List (TurnRunId × AwaitEdge)}

theorem fits_afterScan (fits : (scanning edge [] group).Fits spawn before) :
    (afterScan edge group).Fits spawn before ∧
      ((afterScan edge group).givesUp = true → (scanning edge [] group).givesUp = true) := by
  unfold afterScan
  split
  next opened => exact ⟨fits.2, fun _ => opened⟩
  · exact ⟨fits, fun gaveUp => by cases gaveUp⟩

/-- A sibling that is read open is an open edge of the gate. -/
theorem givesUp_extend {edges : EdgeDir} (gate : GateEdges spawn edges)
    (shared : edge.gateRef = spawn.gateRef) {name : TurnRunId} {rest names : List TurnRunId}
    (gaveUp : (scanning edge rest (extendGroup edge.gateRef edges name group)).givesUp = true) :
    (scanning edge names group).givesUp = true ∨
      ∃ childRunId ∈ spawn.childIds, IsOpen (edges.get childRunId) := by
  revert gaveUp
  fun_cases extendGroup edge.gateRef edges name group <;> try exact .inl
  next file found same =>
    intro gaveUp
    simp only [givesUp, List.any_append, List.any_cons, List.any_nil, Bool.or_false,
      Bool.or_eq_true] at gaveUp
    rcases gaveUp with earlier | opened
    · exact .inl earlier
    · have listed : name ∈ spawn.childIds := by_contra fun other =>
        gate.others name other file found (same.trans shared)
      exact .inr ⟨name, listed, file, found, of_decide_eq_true opened⟩

end HandlerPhase

/-! ### One access -/

/-- What an access of a handler keeps while the parent waits. -/
structure HandlerStep (env : ResolverEnv) (spawn : BlockingSpawn) (childRunId : TurnRunId)
    (world : EdgeWorld) (phase : HandlerPhase) (result : EdgeWorld × HandlerPhase) : Prop where
  edges : EdgeMove spawn world.edges result.1.edges
  refusals : OnlyRefusals env spawn result.1.turns
  fits : result.2.Fits spawn (result.1.edges.get childRunId)
  givesUp : result.2.givesUp = true → phase.givesUp = true ∨
    ∃ other ∈ spawn.childIds, IsOpen (result.1.edges.get other)

section

variable {store : StoreEnv} {env : ResolverEnv} {spawn : BlockingSpawn} {world : EdgeWorld}
  {event : TurnLifecycleEvent} {phase next : HandlerPhase}

section

variable (refusals : OnlyRefusals env spawn world.turns)
include refusals

theorem HandlerStep.read (fits : next.Fits spawn (world.edges.get event.runId))
    (givesUp : next.givesUp = true → phase.givesUp = true ∨
      ∃ other ∈ spawn.childIds, IsOpen (world.edges.get other)) :
    HandlerStep env spawn event.runId world phase (world, next) :=
  ⟨.refl spawn world.edges, refusals, fits, givesUp⟩

theorem HandlerStep.readOn
    (spec : next.Fits spawn (world.edges.get event.runId) ∧ next.givesUp = false) :
    HandlerStep env spawn event.runId world phase (world, next) :=
  .read refusals spec.1 fun gaveUp => by
    rw [spec.2] at gaveUp
    cases gaveUp

theorem HandlerStep.settle (listed : event.runId ∈ spawn.childIds) (input : CallInput)
    {byteLen : Nat} {seen : Cell AwaitEdge}
    (fits : (settleWriting byteLen seen).Fits spawn (world.edges.get event.runId)) :
    HandlerStep env spawn event.runId world phase
      ((settleWriting byteLen seen).run env spawn.runId event input world) := by
  simp only [run]
  rcases edgeMove_settle listed fits event byteLen with
    ⟨refused, settled⟩ | ⟨version, edges, written, move, settled⟩
  · rw [refused]
    exact .readOn refusals ⟨settled, rfl⟩
  · rw [written]
    exact ⟨move, refusals, settled, fun gaveUp => by cases gaveUp⟩

end

theorem HandlerStep.resume (reached : (turnStore store).Reachable anyStep world.turns)
    (refusals : OnlyRefusals env spawn world.turns) (listed : event.runId ∈ spawn.childIds)
    (input : CallInput) {edge : AwaitEdge} {group : List (TurnRunId × AwaitEdge)}
    (blocked : BlockedOn spawn world.turns)
    (still : BlockedOn spawn ((resuming edge group).run env spawn.runId event input
      world).1.turns) :
    HandlerStep env spawn event.runId world phase
      ((resuming edge group).run env spawn.runId event input world) := by
  have spec := resumeParent_of_blocked reached refusals blocked input.now edge listed
  simp only [run] at still ⊢
  cases called : resumeParent env spawn.runId input.now edge event.runId world.turns with
  | mk answer =>
    rw [called] at still spec
    cases answer with
    | ok =>
      obtain ⟨⟨error, failed⟩, _⟩ := spec still
      cases failed
    | error =>
      exact ⟨.refl spawn world.edges, (spec still).2, trivial, fun gaveUp => by cases gaveUp⟩

theorem HandlerStep.run (reached : (turnStore store).Reachable anyStep world.turns)
    (refusals : OnlyRefusals env spawn world.turns) (gate : GateEdges spawn world.edges)
    (listed : event.runId ∈ spawn.childIds) (present : (world.edges.get event.runId).isSome = true)
    (fits : phase.Fits spawn (world.edges.get event.runId)) (input : CallInput)
    (lineage : phase = .lookup → hasLineage spawn.runId event world.turns = true)
    (parked : ∀ edge group, phase = .resuming edge group → BlockedOn spawn world.turns ∧
      BlockedOn spawn (phase.run env spawn.runId event input world).1.turns) :
    HandlerStep env spawn event.runId world phase
      (phase.run env spawn.runId event input world) := by
  have state := gate.isOpen_or_isSettled listed present
  cases phase with
  | lookup =>
    simp only [run, lineage rfl, if_true]
    exact .readOn refusals ⟨trivial, rfl⟩
  | recoveringOwner =>
    simp only [run]
    split <;> exact .readOn refusals ⟨trivial, rfl⟩
  | peeking =>
    obtain ⟨_, found⟩ := isSome_iff_exists.mp present
    simp only [run, found, isNone_some, Bool.false_eq_true, if_false]
    exact .readOn refusals ⟨trivial, rfl⟩
  | reconstructing | opening | closing => exact fits.elim
  | settlePeeking => exact .readOn refusals (fits_afterSettlePeek state)
  | writingResult | crashed => exact .readOn refusals ⟨trivial, rfl⟩
  | settleReading => exact .readOn refusals (fits_afterSettleRead _ state)
  | settleWriting => exact .settle refusals listed input fits
  | settleRereading | listing | transcribing => exact .readOn refusals ⟨fits, rfl⟩
  | drainPeeking =>
    exact .readOn refusals (fits_afterDrainPeek fits fun current found =>
      (gate.ours _ listed current found).1)
  | scanning edge names group =>
    cases names with
    | nil =>
      have spec := fits_afterScan fits
      exact .read refusals spec.1 fun gaveUp => .inl (spec.2 gaveUp)
    | cons => exact .read refusals fits (givesUp_extend gate fits.1)
  | resuming edge group =>
    obtain ⟨blocked, still⟩ := parked edge group rfl
    exact .resume reached refusals listed input blocked still
  | ended => exact .read refusals fits .inl

theorem HandlerStep.failed {result : EdgeWorld × HandlerPhase}
    (fits : phase.Fits spawn (world.edges.get event.runId))
    (step : HandlerStep env spawn event.runId world phase result) :
    HandlerStep env spawn event.runId world phase (result.1, phase.failed) where
  __ := step
  fits := (fits_failed fits).moved (step.edges.moved _)
  givesUp gaveUp := .inl (givesUp_failed fits gaveUp)

/-! ### The turn store behind a handler -/

/-- A closing run gives a reservation back, forgets it or leaves the turn store alone. -/
theorem Closer.run_turns (call : CloseCall) (world : EdgeWorld) (closer : Closer) :
    (closer.run call world).1.turns = world.turns ∨
      (closer.run call world).1.turns = (world.turns.releaseTreeDescendants call.scope
        call.treeRootRunId 1 call.childRunId).2 ∨
      (closer.run call world).1.turns = (world.turns.pruneReleasedChild call.scope
        call.treeRootRunId call.childRunId).2 := by
  cases closer with
  | claimWriting | markWriting =>
    simp only [run]
    split <;> exact .inl rfl
  | releasing =>
    simp only [run]
    split <;>
      next released =>
        rw [released]
        exact .inr (.inl rfl)
  | pruning =>
    simp only [run]
    split <;>
      next pruned =>
        rw [pruned]
        exact .inr (.inr rfl)
  | _ => exact .inl rfl

/-- The turn store goes on, and the parent is not parked. -/
def TurnsStep (store : StoreEnv) (spawn : BlockingSpawn) (before after : Inner) : Prop :=
  (turnStore store).Reachable anyStep after ∧
    (BlockedOn spawn after → BlockedOn spawn before)

theorem TurnsStep.refl {turns : Inner} (reached : (turnStore store).Reachable anyStep turns) :
    TurnsStep store spawn turns turns :=
  ⟨reached, id⟩

theorem resumeParent_turns {turns : Inner}
    (reached : (turnStore store).Reachable anyStep turns) (now : TurnTimestamp)
    (edge : AwaitEdge) (childRunId : TurnRunId) :
    TurnsStep store spawn turns (resumeParent env spawn.runId now edge childRunId turns).2 := by
  unfold resumeParent
  split
  · exact .refl reached
  rename_i actor _
  have orderly := turnStore.orderly reached
  have step : TurnsStep store spawn turns (turns.resumeTurn now
      (resumeRequest env spawn.runId edge actor childRunId)).2 :=
    ⟨turnStore.reachable_apply reached (.resumeTurn now _) trivial trivial,
      blockedOn_of_changed (resumeTurn_changed orderly now _)
        fun _ _ change => change.unparked⟩
  split <;> next called => rwa [called] at step

variable (reached : (turnStore store).Reachable anyStep world.turns)
include reached

theorem Closer.run_turnsStep (call : CloseCall) (closer : Closer) :
    TurnsStep store spawn world.turns (closer.run call world).1.turns := by
  rcases closer.run_turns call world with same | released | pruned
  · rw [same]
    exact .refl reached
  · rw [released]
    refine ⟨turnStore.reachable_apply reached (.releaseTreeDescendants _ _ _ _) trivial trivial, ?_⟩
    exact blockedOn_of_changed ((releaseTreeDescendants_treeWrite _ _ _ _ _).changed
      fun _ _ => False) fun _ _ => False.elim
  · rw [pruned]
    refine ⟨turnStore.reachable_apply reached (.pruneReleasedChild _ _ _) trivial trivial, ?_⟩
    exact blockedOn_of_changed ((pruneReleasedChild_treeWrite _ _ _ _).changed
      fun _ _ => False) fun _ _ => False.elim

theorem HandlerPhase.run_turnsStep (input : CallInput) : TurnsStep store spawn world.turns
      (phase.run env spawn.runId event input world).1.turns := by
  cases phase with
  | recoveringOwner | reconstructing | settleWriting =>
    simp only [run]
    split <;> exact .refl reached
  | scanning edge names =>
    cases names <;> exact .refl reached
  | resuming edge =>
    have step := @resumeParent_turns store env spawn _ reached input.now edge event.runId
    simp only [run]
    split <;> next called => rwa [called] at step
  | closing closer =>
    cases closer with
    | ended result =>
      cases result <;> exact .refl reached
    | _ => exact Closer.run_turnsStep reached _ _
  | _ => exact .refl reached

end

/-! ## The gate while the parent waits -/

section

variable {ι : Type} {store : StoreEnv} {env : ResolverEnv} {spawn : BlockingSpawn}

/-- Some child has an edge, and none of its handlers has given up. -/
def Owing (spawn : BlockingSpawn) (edges : EdgeDir) (handlers : ι → Option Handler) : Prop :=
  ∃ childRunId ∈ spawn.childIds, (edges.get childRunId).isSome = true ∧
    ∀ handler call, handlers handler = some call → call.event.runId = childRunId →
      call.phase.givesUp = false

/-- What holds as long as the parent has not left the gate.  When all edges of the gate are
settled, some child's handlers have not given up: a handler only gives up on an open sibling,
and the sibling that settled last had none. -/
structure Waits (env : ResolverEnv) (spawn : BlockingSpawn) (state : GateState ι) : Prop where
  edges : GateEdges spawn state.edges
  opened : ∀ childRunId ∈ spawn.childIds, childRunId ∉ state.parent.unopened →
    (state.edges.get childRunId).isSome = true
  refusals : OnlyRefusals env spawn state.turns
  calls : ∀ handler call, state.handlers handler = some call →
    call.event.runId ∈ spawn.childIds ∧ call.event.runId ∉ state.parent.unsubmitted ∧
      call.phase.Fits spawn (state.edges.get call.event.runId)
  owed : (∃ childRunId ∈ spawn.childIds, (state.edges.get childRunId).isSome = true) →
    (∀ childRunId ∈ spawn.childIds, (state.edges.get childRunId).isSome = true →
      IsSettled (state.edges.get childRunId)) → Owing spawn state.edges state.handlers

/-- A call of a handler after a step: an old one, or one that fits and has not given up
without an open sibling. -/
def CallStep (spawn : BlockingSpawn) (state : GateState ι) (edges : EdgeDir) (handler : ι)
    (call : Handler) : Prop :=
  state.handlers handler = some call ∨
    call.event.runId ∈ spawn.childIds ∧ call.event.runId ∉ state.parent.unsubmitted ∧
      call.phase.Fits spawn (edges.get call.event.runId) ∧
      (call.phase.givesUp = true → (∃ earlier, state.handlers handler = some earlier ∧
          earlier.event.runId = call.event.runId ∧ earlier.phase.givesUp = true) ∨
        ∃ other ∈ spawn.childIds, IsOpen (edges.get other))

variable {state : GateState ι} {world : EdgeWorld} {parent : ParentPhase}
  {handlers : ι → Option Handler}

theorem Waits.owed_step (waits : Waits env spawn state)
    (move : EdgeMove spawn state.edges world.edges)
    (calls : ∀ handler call, handlers handler = some call →
      CallStep spawn state world.edges handler call)
    (some_edge : ∃ childRunId ∈ spawn.childIds, (world.edges.get childRunId).isSome = true)
    (all_settled : ∀ childRunId ∈ spawn.childIds, (world.edges.get childRunId).isSome = true →
      IsSettled (world.edges.get childRunId)) : Owing spawn world.edges handlers := by
  have closed : ∀ other ∈ spawn.childIds, ¬ IsOpen (world.edges.get other) := by
    intro other listed opened
    have ⟨current, found, _⟩ := opened
    exact (all_settled other listed (by rw [found]; rfl)).not_open opened
  suffices before : Owing spawn state.edges state.handlers by
    obtain ⟨childRunId, listed, present, waiting⟩ := before
    refine ⟨childRunId, listed, (move.moved childRunId).isSome present, ?_⟩
    intro handler call stored own
    by_contra gaveUp
    rcases calls handler call stored with old | ⟨_, _, _, spec⟩
    · exact gaveUp (waiting handler call old own)
    · rcases spec (by simpa using gaveUp) with ⟨earlier, found, same, before⟩ |
        ⟨other, listed, opened⟩
      · rw [waiting handler earlier found (same.trans own)] at before
        cases before
      · exact closed other listed opened
  by_cases was_open : ∃ childRunId ∈ spawn.childIds, IsOpen (state.edges.get childRunId)
  · -- The child whose edge was settled by this step: none of its handlers had given up.
    obtain ⟨childRunId, listed, opened⟩ := was_open
    have ⟨current, found, _⟩ := opened
    refine ⟨childRunId, listed, by rw [found]; rfl, ?_⟩
    intro handler call stored own
    by_contra gaveUp
    have settled := (waits.calls handler call stored).2.2.isSettled (by simpa using gaveUp)
    rw [own] at settled
    exact settled.not_open opened
  · have same : ∀ childRunId ∈ spawn.childIds, (world.edges.get childRunId).isSome = true →
        world.edges.get childRunId = state.edges.get childRunId := by
      intro childRunId listed present
      rcases (move.moved childRunId).wasOpen_or_same (all_settled childRunId listed present) with
        opened | same
      · exact absurd ⟨childRunId, listed, opened⟩ was_open
      · exact same
    obtain ⟨first, listed, present⟩ := some_edge
    exact waits.owed ⟨first, listed, by rw [← same first listed present]; exact present⟩
      fun other inGate present => (waits.edges.isOpen_or_isSettled inGate present).resolve_left
        fun opened => was_open ⟨other, inGate, opened⟩

theorem Waits.step (waits : Waits env spawn state) (move : EdgeMove spawn state.edges world.edges)
    (refusals : OnlyRefusals env spawn world.turns)
    (opened : ∀ childRunId ∈ spawn.childIds, childRunId ∉ parent.unopened →
      childRunId ∉ state.parent.unopened ∨ (world.edges.get childRunId).isSome = true)
    (submitted : ∀ childRunId ∈ parent.unsubmitted, childRunId ∈ state.parent.unsubmitted)
    (calls : ∀ handler call, handlers handler = some call →
      CallStep spawn state world.edges handler call) :
    Waits env spawn ⟨world, parent, handlers⟩ where
  edges := waits.edges.moved move
  opened childRunId listed done := by
    rcases opened childRunId listed done with before | present
    · exact (move.moved childRunId).isSome (waits.opened childRunId listed before)
    · exact present
  refusals
  calls handler call stored := by
    rcases calls handler call stored with old | ⟨listed, done, fits, _⟩
    · obtain ⟨listed, done, fits⟩ := waits.calls handler call old
      exact ⟨listed, fun pending => done (submitted _ pending), fits.moved (move.moved _)⟩
    · exact ⟨listed, fun pending => done (submitted _ pending), fits⟩
  owed := waits.owed_step move calls

theorem ParentPhase.unsubmitted_of_unopened (parent : ParentPhase) {childRunId : TurnRunId}
    (pending : childRunId ∈ parent.unopened) : childRunId ∈ parent.unsubmitted := by
  cases parent with
  | submitting child => exact List.mem_cons_of_mem _ pending
  | spawning todo | spawnFailed => exact pending
  | _ => cases pending

theorem Waits.present (waits : Waits env spawn state) {handler : ι} {call : Handler}
    (stored : state.handlers handler = some call) :
    (state.edges.get call.event.runId).isSome = true := by
  obtain ⟨listed, done, _⟩ := waits.calls handler call stored
  exact waits.opened _ listed fun pending => done (state.parent.unsubmitted_of_unopened pending)

theorem Waits.not_handled (waits : Waits env spawn state) (spawned : state.parent.unopened = [])
    (handled : ∀ childRunId ∈ spawn.childIds, ∃ handler call,
      state.handlers handler = some call ∧ call.event.runId = childRunId ∧
        call.phase.isHandled = true) : False := by
  have gives : ∀ phase : HandlerPhase, phase.isHandled = true → phase.givesUp = true := by
    intro phase finished
    cases phase with
    | ended result =>
      cases result with
      | ok => rfl
      | error => cases finished
    | _ => cases finished
  have present : ∀ childRunId ∈ spawn.childIds, (state.edges.get childRunId).isSome = true := by
    intro childRunId listed
    exact waits.opened childRunId listed (by rw [spawned]; exact List.not_mem_nil)
  obtain ⟨child, inSpawn⟩ := List.exists_mem_of_ne_nil _ spawn.spawns
  have listed : child.childRunId ∈ spawn.childIds := List.mem_map_of_mem inSpawn
  obtain ⟨last, inGate, _, waiting⟩ := waits.owed ⟨_, listed, present _ listed⟩ (by
    intro childRunId inGate _
    obtain ⟨handler, call, stored, own, finished⟩ := handled childRunId inGate
    rw [← own]
    exact (waits.calls handler call stored).2.2.isSettled (gives _ finished))
  obtain ⟨handler, call, stored, own, finished⟩ := handled last inGate
  have gaveUp := gives _ finished
  rw [waiting handler call stored own] at gaveUp
  cases gaveUp

/-! ### The parent's steps -/

/-- The parent opens edges of its own children, and its evidence names one of them. -/
def ParentPhase.Fits (spawn : BlockingSpawn) : ParentPhase → Prop
  | .spawning todo => ∀ child ∈ todo, child ∈ spawn.children
  | .submitting child rest => child ∈ spawn.children ∧ ∀ other ∈ rest, other ∈ spawn.children
  | .verifying names group =>
    (∃ childRunId ∈ spawn.childIds, childRunId ∈ names) ∨
      group.any (fun member => member.2.mode = .blocking) = true
  | .applying evidence | .exited evidence => evidence ≠ .noAwaitedChild
  | _ => True

/-- The evidence check reads the edge of a child: it is there, and blocking. -/
theorem verifying_fits {edges : EdgeDir} (gate : GateEdges spawn edges)
    (present : ∀ childRunId ∈ spawn.childIds, (edges.get childRunId).isSome = true)
    {name : TurnRunId} {rest : List TurnRunId} {group : List (TurnRunId × AwaitEdge)}
    (fits : (verifying (name :: rest) group).Fits spawn) :
    (verifying rest (extendGroup spawn.gateRef edges name group)).Fits spawn := by
  have grows : group.any (fun member => member.2.mode = .blocking) = true →
      (extendGroup spawn.gateRef edges name group).any
        (fun member => member.2.mode = .blocking) = true := by
    intro found
    fun_cases extendGroup spawn.gateRef edges name group <;> try exact found
    rw [List.any_append, found]
    rfl
  rcases fits with ⟨childRunId, listed, named⟩ | found
  · rcases List.mem_cons.mp named with rfl | later
    · right
      obtain ⟨file, found⟩ := isSome_iff_exists.mp (present childRunId listed)
      obtain ⟨shared, mode, _⟩ := gate.ours childRunId listed file found
      unfold extendGroup
      rw [found]
      simp [shared, mode]
    · exact .inl ⟨childRunId, listed, later⟩
  · exact .inr (grows found)

/-- What an access of the parent keeps before it has left. -/
structure ParentStep (store : StoreEnv) (env : ResolverEnv) (spawn : BlockingSpawn)
    (world : EdgeWorld) (phase : ParentPhase) (result : EdgeWorld × ParentPhase) : Prop where
  reached : (turnStore store).Reachable anyStep result.1.turns
  edges : EdgeMove spawn world.edges result.1.edges
  refusals : OnlyRefusals env spawn result.1.turns
  fits : result.2.Fits spawn
  opened : ∀ childRunId ∈ spawn.childIds, childRunId ∉ result.2.unopened →
    childRunId ∉ phase.unopened ∨ (result.1.edges.get childRunId).isSome = true
  submitted : ∀ childRunId ∈ result.2.unsubmitted, childRunId ∈ phase.unsubmitted

section

variable {phase : ParentPhase}
  (reached : (turnStore store).Reachable anyStep world.turns)
  (refusals : OnlyRefusals env spawn world.turns)

include reached refusals

theorem ParentStep.read {next : ParentPhase} (fits : next.Fits spawn)
    (opened : next.unopened = phase.unopened) (submitted : next.unsubmitted = phase.unsubmitted) :
    ParentStep store env spawn world phase (world, next) where
  reached
  edges := .refl spawn world.edges
  refusals
  fits
  opened _ _ done := .inl (by rwa [← opened])
  submitted _ pending := by rwa [← submitted]

variable {child : ChildSpawn} {rest : List ChildSpawn} (input : CallInput)

theorem ParentStep.open (fits : (spawning (child :: rest)).Fits spawn) :
    ParentStep store env spawn world (.spawning (child :: rest))
      ((spawning (child :: rest)).run env spawn input world) where
  reached
  edges := (edgeMove_open child (fits child List.mem_cons_self)).1
  refusals
  fits := ⟨fits child List.mem_cons_self, fun other listed =>
    fits other (List.mem_cons_of_mem _ listed)⟩
  opened childRunId _ done := by
    by_cases own : childRunId = child.childRunId
    · subst own
      exact .inr (edgeMove_open child (fits child List.mem_cons_self)).2
    · exact .inl fun pending => (List.mem_cons.mp pending).elim own done
  submitted _ pending := pending

theorem ParentStep.submit (fits : (submitting child rest).Fits spawn) :
    ParentStep store env spawn world (.submitting child rest)
      ((submitting child rest).run env spawn input world) := by
  have after : (turnStore store).Reachable anyStep (world.turns.submitChildTurn child.context
      (spawn.childRequest env child)).2 :=
    turnStore.submitChildTurn_keeps store _ _ (fun before op submission earlier =>
      turnStore.reachable_apply earlier op (op.admissible_of_isSubmission before submission)
        trivial) reached
  have kept : OnlyRefusals env spawn (world.turns.submitChildTurn child.context
      (spawn.childRequest env child)).2 := by
    refine turnStore.submitChildTurn_keeps store _ _ (fun before op submission kept => ?_)
      refusals
    refine kept.apply op fun resumes => ?_
    cases op with
    | resumeTurn => cases submission
    | _ => exact resumes
  simp only [ParentPhase.run]
  cases called : world.turns.submitChildTurn child.context (spawn.childRequest env child) with
  | mk answer =>
    rw [called] at after kept
    rcases answer with _ | _ | _
    · exact ⟨after, .refl spawn _, kept, fits, fun _ _ done => .inl done, fun _ pending => pending⟩
    · exact ⟨after, .refl spawn _, kept, trivial,
        fun _ _ done => .inl fun pending => done (List.mem_cons_of_mem _ pending),
        fun _ pending => pending⟩
    · exact ⟨after, .refl spawn _, kept, fits.2, fun _ _ done => .inl done,
        fun _ pending => List.mem_cons_of_mem _ pending⟩

theorem ParentStep.applyExit {evidence : BlockedEvidence} (fits : (applying evidence).Fits spawn) :
    ParentStep store env spawn world (.applying evidence)
      ((applying evidence).run env spawn input world) := by
  have after := turnStore.reachable_apply reached (.applyValidatedLoopExit input.now
    ⟨spawn.runId, spawn.runnerId, spawn.leaseToken⟩ (spawn.exitMapping evidence) none)
    trivial trivial
  have kept := @OnlyRefusals.apply store env spawn _ refusals (.applyValidatedLoopExit input.now
    ⟨spawn.runId, spawn.runnerId, spawn.leaseToken⟩ (spawn.exitMapping evidence) none) id
  simp only [StoreOp.apply] at after kept
  simp only [ParentPhase.run]
  cases called : world.turns.applyValidatedLoopExit input.now
    ⟨spawn.runId, spawn.runnerId, spawn.leaseToken⟩ (spawn.exitMapping evidence) none with
  | mk answer =>
    rw [called] at after kept
    cases answer with
    | ok =>
      exact ⟨after, .refl spawn _, kept, fits, fun _ _ done => .inl done, fun _ pending => pending⟩
    | error =>
      exact ⟨after, .refl spawn _, kept, trivial, fun _ _ done => .inl done, fun _ pending =>
        pending⟩

theorem ParentStep.run (gate : GateEdges spawn world.edges)
    (present : ∀ childRunId ∈ spawn.childIds, childRunId ∉ phase.unopened →
      (world.edges.get childRunId).isSome = true)
    (fits : phase.Fits spawn) (input : CallInput)
    (lists : input.names.toFinset = world.edges.keys) :
    ParentStep store env spawn world phase (phase.run env spawn input world) := by
  cases phase with
  | spawning todo =>
    cases todo with
    | nil =>
      obtain ⟨child, inSpawn⟩ := List.exists_mem_of_ne_nil _ spawn.spawns
      have listed : child.childRunId ∈ spawn.childIds := List.mem_map_of_mem inSpawn
      refine .read reached refusals (.inl ⟨child.childRunId, listed, ?_⟩) rfl rfl
      rw [← List.mem_toFinset, lists, mem_keys]
      exact present _ listed List.not_mem_nil
    | cons => exact .open reached refusals input fits
  | submitting => exact .submit reached refusals input fits
  | spawnFailed | exitFailed => exact .read reached refusals trivial rfl rfl
  | verifying names group =>
    cases names with
    | nil =>
      have found : group.any (fun member => member.2.mode = .blocking) = true := by
        rcases fits with ⟨_, _, named⟩ | found
        · cases named
        · exact found
      simp only [ParentPhase.run, found, if_true]
      exact .read reached refusals trivial rfl rfl
    | cons =>
      refine .read reached refusals (verifying_fits gate ?_ fits) rfl rfl
      exact fun childRunId listed => present childRunId listed List.not_mem_nil
  | checkpointing =>
    refine .read reached refusals ?_ rfl rfl
    change (if spawn.checkpointMatches world.turns then verified
      else checkpointMismatch) ≠ .noAwaitedChild
    split <;> decide
  | applying => exact .applyExit reached refusals input fits
  | exited => exact .read reached refusals fits rfl rfl

end

end

end Ironclaw.Subagent
