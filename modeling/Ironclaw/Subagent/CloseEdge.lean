import Ironclaw.Lib.Files
import Ironclaw.Turns.SpawnTree

/-!
# Await edges and their closing

One file for each child a parent run waits for carries the state of the wait and how far the
release of the child's reservation has got.  `close_with_release` as the resolver wires it:
the release marker on the edge is driven to `Released` around a call of
`release_tree_descendants`, the store's memory of the released child is pruned, and the file
is deleted.  Any number of these runs work on one edge, each file access and each store call
a step of its own, and any of them may fail or crash between two steps.
-/

namespace Ironclaw.Subagent

open Lib Turns Inner System Function Table TreeReservationState

inductive AwaitEdgeState where
  | opened
  | settled
  | drained
  | abandoned
  deriving DecidableEq

inductive ReservationReleaseState where
  | unclaimed
  | claimed
  | released
  deriving DecidableEq

inductive EdgeTerminalKind where
  | completed
  | failed
  | cancelled
  | recoveryRequired

def EdgeTerminalKind.fromStatus : TurnStatus → Option EdgeTerminalKind
  | .completed => some .completed
  | .failed => some .failed
  | .cancelled => some .cancelled
  | .recoveryRequired => some .recoveryRequired
  | _ => none

inductive SpawnSubagentMode where
  | blocking
  | background
  deriving DecidableEq

/-- The part of the parent's run context that a resume needs. -/
structure LoopRunContext where
  scope : TurnScope
  actor : Option TurnActor
  runId : TurnRunId

structure AwaitEdge where
  parentRunContext : LoopRunContext
  treeRootRunId : TurnRunId
  gateRef : GateRef
  sourceBindingRef : SourceBindingRef
  replyTargetBindingRef : ReplyTargetBindingRef
  mode : SpawnSubagentMode
  state : AwaitEdgeState
  terminalKind : Option EdgeTerminalKind
  terminalByteLen : Option Nat
  terminalReason : Option String
  reservationRelease : ReservationReleaseState

/-- The edge with its release marker moved. -/
def AwaitEdge.withRelease (edge : AwaitEdge) (marker : ReservationReleaseState) : AwaitEdge :=
  { edge with reservationRelease := marker }

@[simp]
theorem AwaitEdge.withRelease_marker (edge : AwaitEdge) (marker : ReservationReleaseState) :
    (edge.withRelease marker).reservationRelease = marker :=
  rfl

/-- Why a backend failed: the filesystem, or the turn store behind an injected call. -/
inductive BackendReason where
  | filesystem
  | turnStore (error : TurnError)

inductive AwaitEdgeStoreError where
  | notFound (parentRunId childRunId : TurnRunId)
  | versionMismatch (parentRunId childRunId : TurnRunId)
  | backend (reason : BackendReason)

/-- The edge files of one parent, by child. -/
abbrev EdgeDir : Type := Files TurnRunId AwaitEdge

/-- What the callers of the await-edge store share: the edges of one parent and the turn
store. -/
structure EdgeWorld where
  edges : EdgeDir
  turns : Inner

/-! ## Closing -/

structure CloseCall where
  scope : TurnScope
  parentRunId : TurnRunId
  treeRootRunId : TurnRunId
  childRunId : TurnRunId

/-- The next access of a `close_with_release` run, with what it has read. -/
inductive Closer where
  | reading
  | claimReading
  | claimWriting (seen : Cell AwaitEdge)
  | releasing (claimedVersion : Nat)
  | markReading (claimedVersion : Nat)
  | markWriting (seen : Cell AwaitEdge)
  | adopting
  | unclaimReading (error : AwaitEdgeStoreError)
  | unclaimWriting (error : AwaitEdgeStoreError) (seen : Cell AwaitEdge)
  | pruning (releasedVersion : Nat)
  | deleting (releasedVersion : Nat)
  | pruningRoster
  | ended (result : Except AwaitEdgeStoreError Unit)
  | crashed

namespace Closer

def isOver : Closer → Bool
  | .ended _ | .crashed => true
  | _ => false

/-! ## Continuations of the reads -/

/-- The first fetch decides which sub-state the close starts from. -/
def afterRead : Option (Cell AwaitEdge) → Closer
  | none => .ended (.ok ())
  | some file =>
    match file.value.reservationRelease with
    | .released => .pruning file.version
    | .claimed => .releasing file.version
    | .unclaimed => .claimReading

/-- `claim_release` after its read; a claim somebody else holds ends the run. -/
def afterClaimRead : Option (Cell AwaitEdge) → Closer
  | none => .ended (.ok ())
  | some file =>
    if file.value.reservationRelease ≠ .unclaimed then .ended (.ok ()) else .claimWriting file

def afterMarkRead (call : CloseCall) (claimedVersion : Nat) : Option (Cell AwaitEdge) → Closer
  | none => .ended (.error (.notFound call.parentRunId call.childRunId))
  | some file => if file.version ≠ claimedVersion then .adopting else .markWriting file

/-- After a lost `Claimed -> Released` race the current version becomes the delete token. -/
def afterAdoptRead (call : CloseCall) : Option (Cell AwaitEdge) → Closer
  | none => .ended (.ok ())
  | some file =>
    if file.value.reservationRelease ≠ .released then
      .ended (.error (.versionMismatch call.parentRunId call.childRunId))
    else .pruning file.version

def afterUnclaimRead (error : AwaitEdgeStoreError) : Option (Cell AwaitEdge) → Closer
  | none => .ended (.error error)
  | some file =>
    if file.value.reservationRelease ≠ .claimed then .ended (.error error)
    else .unclaimWriting error file

/-! ## Steps -/

def run (call : CloseCall) (world : EdgeWorld) : Closer → EdgeWorld × Closer
  | .reading => (world, afterRead (world.edges.get call.childRunId))
  | .claimReading => (world, afterClaimRead (world.edges.get call.childRunId))
  | .claimWriting seen =>
    match world.edges.put call.childRunId (seen.value.withRelease .claimed)
        (some seen.version) with
    | (some version, edges) => ({ world with edges }, .releasing version)
    | (none, _) => (world, .ended (.ok ()))
  | .releasing claimedVersion =>
    match world.turns.releaseTreeDescendants call.scope call.treeRootRunId 1
        call.childRunId with
    | (.ok (), turns) => ({ world with turns }, .markReading claimedVersion)
    | (.error error, turns) =>
      ({ world with turns }, .unclaimReading (.backend (.turnStore error)))
  | .markReading claimedVersion =>
    (world, afterMarkRead call claimedVersion (world.edges.get call.childRunId))
  | .markWriting seen =>
    match world.edges.put call.childRunId (seen.value.withRelease .released)
        (some seen.version) with
    | (some version, edges) => ({ world with edges }, .pruning version)
    | (none, _) => (world, .adopting)
  | .adopting => (world, afterAdoptRead call (world.edges.get call.childRunId))
  | .unclaimReading error => (world, afterUnclaimRead error (world.edges.get call.childRunId))
  | .unclaimWriting error seen =>
    ({ world with
        edges := (world.edges.put call.childRunId
          (seen.value.withRelease .unclaimed) (some seen.version)).2 }, .ended (.error error))
  | .pruning releasedVersion =>
    match world.turns.pruneReleasedChild call.scope call.treeRootRunId call.childRunId with
    | (.ok (), turns) => ({ world with turns }, .deleting releasedVersion)
    | (.error error, turns) =>
      ({ world with turns }, .ended (.error (.backend (.turnStore error))))
  | .deleting releasedVersion =>
    ({ world with edges := world.edges.deleteIf call.childRunId releasedVersion }, .pruningRoster)
  | .pruningRoster => (world, .ended (.ok ()))
  | .ended result => (world, .ended result)
  | .crashed => (world, .crashed)

/-- Where the run goes on when an access answers with a backend failure: only a failed
release is followed by more work. -/
def failed : Closer → Closer
  | .releasing _ => .unclaimReading (.backend .filesystem)
  | .ended result => .ended result
  | .crashed => .crashed
  | _ => .ended (.error (.backend .filesystem))

def crash : Closer → Closer
  | .ended result => .ended result
  | _ => .crashed

end Closer

/-! ## Many runs on one edge -/

structure CloseState (ι : Type) extends EdgeWorld where
  closers : ι → Closer

inductive CloseLabel (ι : Type) where
  /-- The next access of the run. -/
  | run (closer : ι)
  /-- The next access answers with a failure, with or without having taken effect. -/
  | fail (closer : ι) (applied : Bool)
  | crash (closer : ι)

namespace CloseState

variable {ι : Type} [DecidableEq ι] (call : CloseCall)

def apply (state : CloseState ι) : CloseLabel ι → CloseState ι
  | .run closer =>
    let result := (state.closers closer).run call state.toEdgeWorld
    ⟨result.1, update state.closers closer result.2⟩
  | .fail closer applied =>
    let result := (state.closers closer).run call state.toEdgeWorld
    ⟨if applied then result.1 else state.toEdgeWorld,
      update state.closers closer (state.closers closer).failed⟩
  | .crash closer =>
    ⟨state.toEdgeWorld, update state.closers closer (state.closers closer).crash⟩

end CloseState

open CloseState

/-- Any number of `close_with_release` runs for one edge, from a given world. -/
def closeRace (ι : Type) [DecidableEq ι] (call : CloseCall) (start : EdgeWorld) :
    System (CloseState ι) (CloseLabel ι) :=
  .ofFunction (fun state => state = ⟨start, fun _ => .reading⟩) (apply call)

variable (call : CloseCall)

def CloseCall.tree : SpawnTreeReservationKey :=
  .new call.scope call.treeRootRunId

def CloseLabel.caller {ι : Type} : CloseLabel ι → Option ι
  | .run closer | .fail closer true => some closer
  | .fail _ false | .crash _ => none

/-- A release made now is not late: the edge is there and not yet `Released`, or the store
still remembers the child. -/
def CloseCall.inTime (world : EdgeWorld) : Bool :=
  (world.edges.get call.childRunId).any (fun file =>
      file.value.reservationRelease ≠ .released) ||
    decide (call.childRunId ∈ (world.turns.treeState call.tree).releasedChildren)

/-- No run makes its release call late. -/
def CloseState.releasesInTime {ι : Type} (call : CloseCall) (state : CloseState ι)
    (label : CloseLabel ι) : Bool :=
  match label.caller.map state.closers with
  | some (.releasing _) => call.inTime state.toEdgeWorld
  | _ => true

/-- Once the edge is deleted and every run is over, the tree has lost exactly one
descendant. -/
def ReleasedOnce {ι : Type} (call : CloseCall) (start : EdgeWorld) (state : CloseState ι) : Prop :=
  state.edges.get call.childRunId = none → (∀ closer, (state.closers closer).isOver = true) →
    state.turns.descendantCount call.tree + 1 = start.turns.descendantCount call.tree

/-! ## What the runs know -/

/-- The file is deleted, or its reservation has been marked released. -/
def Closed (file : Option (Cell AwaitEdge)) : Prop :=
  ∀ current, file = some current → current.value.reservationRelease = .released

/-- What can happen to the edge file: no write touches a released edge, and only a released
edge is deleted. -/
inductive FileStep : Option (Cell AwaitEdge) → Option (Cell AwaitEdge) → Prop where
  | same (file : Option (Cell AwaitEdge)) : FileStep file file
  | written {current : Cell AwaitEdge} (value : AwaitEdge)
      (unreleased : current.value.reservationRelease ≠ .released) :
      FileStep (some current) (some ⟨value, current.version + 1⟩)
  | deleted {current : Cell AwaitEdge} (released : current.value.reservationRelease = .released) :
      FileStep (some current) none

/-- If the file still has the version, its release marker is the given one. -/
def MarkedAt (version : Nat) (marker : ReservationReleaseState)
    (file : Option (Cell AwaitEdge)) : Prop :=
  KnownAt version (fun edge => edge.reservationRelease = marker) file

variable {marker : ReservationReleaseState} {before after : Option (Cell AwaitEdge)}

theorem MarkedAt.ofRead {current : Cell AwaitEdge}
    (marked : current.value.reservationRelease = marker) :
    MarkedAt current.version marker (some current) :=
  @KnownAt.ofRead AwaitEdge (fun edge => edge.reservationRelease = marker) current marked

theorem MarkedAt.afterStep {version : Nat} (known : MarkedAt version marker before)
    (step : FileStep before after) : MarkedAt version marker after := by
  cases step with
  | same => exact known
  | written => exact KnownAt.written known _
  | deleted => exact .absent _ _

theorem Closed.afterStep (closed : Closed before) (step : FileStep before after) :
    Closed after := by
  cases step with
  | same => exact closed
  | written _ unreleased => exact absurd (closed _ rfl) unreleased
  | deleted => rintro _ ⟨⟩

namespace Closer

/-- What a run relies on between its accesses; a run that goes on to mark the edge has seen
the reservation given back. -/
def Knows (file : Option (Cell AwaitEdge)) (givenBack : Prop) : Closer → Prop
  | .claimWriting seen => MarkedAt seen.version .unclaimed file
  | .releasing version => MarkedAt version .claimed file
  | .markReading version => givenBack ∧ MarkedAt version .claimed file
  | .markWriting seen => givenBack ∧ MarkedAt seen.version .claimed file
  | .unclaimWriting _ seen => MarkedAt seen.version .claimed file
  | .pruning _ | .deleting _ => Closed file
  | _ => True

theorem Knows.afterStep {closer : Closer} {before after : Option (Cell AwaitEdge)}
    {first second : Prop} (knows : closer.Knows before first) (step : FileStep before after)
    (implied : first → second) : closer.Knows after second := by
  cases closer with
  | claimWriting | releasing | unclaimWriting => exact MarkedAt.afterStep knows step
  | markReading | markWriting => exact ⟨implied knows.1, MarkedAt.afterStep knows.2 step⟩
  | pruning | deleting => exact Closed.afterStep knows step
  | _ => trivial

variable (call : CloseCall) (closer : Closer) (file : Option (Cell AwaitEdge)) (givenBack : Prop)

theorem knows_failed : closer.failed.Knows file givenBack := by
  cases closer <;> trivial

theorem knows_crash : closer.crash.Knows file givenBack := by
  cases closer <;> trivial

/-! ## Reads -/

theorem knows_afterRead : (afterRead file).Knows file givenBack := by
  cases file with
  | none => trivial
  | some file =>
    unfold afterRead
    dsimp only
    cases marker : file.value.reservationRelease with
    | released =>
      rintro _ ⟨⟩
      exact marker
    | claimed => exact MarkedAt.ofRead marker
    | unclaimed => trivial

theorem knows_afterClaimRead : (afterClaimRead file).Knows file givenBack := by
  cases file with
  | none => trivial
  | some =>
    rw [afterClaimRead]
    split_ifs with unclaimed
    · trivial
    · exact MarkedAt.ofRead (not_not.mp unclaimed)

theorem knows_afterMarkRead {version : Nat} {file : Option (Cell AwaitEdge)} {givenBack : Prop}
    (knows : (markReading version).Knows file givenBack) :
    (afterMarkRead call version file).Knows file givenBack := by
  cases file with
  | none => trivial
  | some =>
    rw [afterMarkRead]
    split_ifs with same
    · trivial
    · exact ⟨knows.1, (not_not.mp same) ▸ knows.2⟩

theorem knows_afterAdoptRead : (afterAdoptRead call file).Knows file givenBack := by
  cases file with
  | none => trivial
  | some =>
    rw [afterAdoptRead]
    split_ifs with released
    · trivial
    · rintro _ ⟨⟩
      exact not_not.mp released

theorem knows_afterUnclaimRead (error : AwaitEdgeStoreError) (file : Option (Cell AwaitEdge))
    (givenBack : Prop) : (afterUnclaimRead error file).Knows file givenBack := by
  cases file with
  | none => trivial
  | some =>
    rw [afterUnclaimRead]
    split_ifs with claimed
    · trivial
    · exact MarkedAt.ofRead (not_not.mp claimed)

end Closer

/-! ## Giving the reservation back -/

/-- The child is counted in its tree, and the edge says that it is still to be released. -/
structure Held (call : CloseCall) (tree : TreeReservationState) (world : EdgeWorld) : Prop where
  rooted : ∃ root, world.turns.treeRoot call.scope call.treeRootRunId = .ok root
  counted : world.turns.treeReservations.get call.tree = some tree
  unmarked : call.childRunId ∉ tree.releasedChildren
  unreleased : ∃ file, world.edges.get call.childRunId = some file ∧
    file.value.reservationRelease ≠ .released

/-- The tree has one descendant less than it had. -/
def GivenBack (tree : TreeReservationState) (turns : Inner) : Prop :=
  turns.descendantCount call.tree + 1 = tree.count

/-- A release of the child finds nothing to take from its tree. -/
def Spent (turns : Inner) : Prop :=
  turns.treeReservations.get call.tree = none ∨
    call.childRunId ∈ (turns.treeState call.tree).releasedChildren

/-- Either nothing has been given back, or one descendant has; then the store remembers the
child or the edge tells that it was released. -/
def Accounted (tree : TreeReservationState) (world : EdgeWorld) : Prop :=
  Held call tree world ∨ GivenBack call tree world.turns ∧
      (Spent call world.turns ∨ Closed (world.edges.get call.childRunId))

section

variable {env : StoreEnv} {call : CloseCall} {tree : TreeReservationState} {world : EdgeWorld}

theorem Held.not_givenBack (held : Held call tree world) : ¬ GivenBack call tree world.turns := by
  have count : world.turns.descendantCount call.tree = tree.count :=
    congrArg count (treeState_of_get held.counted)
  unfold GivenBack
  omega

/-- An edge that is closed has had its reservation given back. -/
theorem Accounted.givenBack (accounted : Accounted call tree world)
    (closed : Closed (world.edges.get call.childRunId)) : GivenBack call tree world.turns := by
  rcases accounted with held | ⟨given, _⟩
  · obtain ⟨file, found, unreleased⟩ := held.unreleased
    exact absurd (closed file found) unreleased
  · exact given

section

variable (reached : (turnStore env).Reachable anyStep world.turns)
include reached

theorem Held.release_ok (held : Held call tree world) :
    (world.turns.releaseTreeDescendants call.scope call.treeRootRunId 1 call.childRunId).1 =
      .ok () := by
  obtain ⟨root, passed⟩ := held.rooted
  have keyed : root.runId = call.treeRootRunId :=
    (turnStore.agreement reached).keyed (spec_of_treeRoot passed)
  have positive : 0 < tree.count := turnStore.treesPositive reached _ _ held.counted
  have found : world.turns.treeReservations.get
      (.new call.scope call.treeRootRunId) = some tree := held.counted
  unfold releaseTreeDescendants
  simp only [passed, keyed, found, if_neg held.unmarked, if_neg (Nat.not_lt.mpr positive)]
  split <;> rfl

theorem Held.release (held : Held call tree world) {turns : Inner}
    (released : (world.turns.releaseTreeDescendants call.scope call.treeRootRunId 1
      call.childRunId).2 = turns) : GivenBack call tree turns ∧ Spent call turns := by
  have accepted := held.release_ok reached
  have positive : 0 < tree.count := turnStore.treesPositive reached _ _ held.counted
  rcases releaseTreeDescendants_cases call.scope call.treeRootRunId 1 call.childRunId
    (turnStore.agreement reached) with ⟨error, refused⟩ | ⟨_, ⟨_, marked⟩ | taken⟩
  · rw [refused] at accepted
    cases accepted
  · exact absurd (marked tree held.counted) held.unmarked
  · obtain ⟨_, present, _, _, _, trees⟩ := taken
    cases (present.symm.trans held.counted)
    rw [released] at trees
    have state := (treeState_of_release call.tree trees).trans (if_pos rfl)
    rw [releasedTrees] at trees
    unfold GivenBack descendantCount
    split at state
    next emptied =>
      refine ⟨by rw [state]; dsimp only; omega, .inl ?_⟩
      rw [trees, if_pos emptied]
      exact get_remove_self _ _
    · refine ⟨by rw [state]; dsimp only; omega, .inr ?_⟩
      rw [state]
      exact Finset.mem_insert_self _ _

theorem Spent.release (spent : Spent call world.turns) :
    (world.turns.releaseTreeDescendants call.scope call.treeRootRunId 1
      call.childRunId).2 = world.turns := by
  rcases releaseTreeDescendants_cases call.scope call.treeRootRunId 1 call.childRunId
    (turnStore.agreement reached) with ⟨error, refused⟩ | ⟨_, ⟨idle, _⟩ | taken⟩
  · rw [refused]
  · rw [idle]
  · obtain ⟨found, present, unmarked, _⟩ := taken
    have present : world.turns.treeReservations.get call.tree = some found := present
    rcases spent with missing | marked
    · rw [present] at missing
      cases missing
    · rw [treeState_of_get present] at marked
      exact absurd marked unmarked

end

theorem descendantCount_prune (call : CloseCall) (turns : Inner) :
    (turns.pruneReleasedChild call.scope call.treeRootRunId call.childRunId).2.descendantCount
      call.tree = turns.descendantCount call.tree := by
  unfold descendantCount
  rcases pruneReleasedChild_cases call.scope call.treeRootRunId call.childRunId turns with
    same | ⟨key, found, present, trees⟩
  · rw [treeState_of_same _ same]
  rw [treeState_of_insert _ trees]
  split
  next equal => rw [equal, treeState_of_get present]
  · rfl

/-! ## One step -/

theorem put_marked {edges : EdgeDir} {childRunId : TurnRunId} {version : Nat}
    {marker : ReservationReleaseState} (known : MarkedAt version marker (edges.get childRunId))
    (unreleased : marker ≠ .released) (value : AwaitEdge) :
    edges.put childRunId value (some version) = (none, edges) ∨
      ∃ after, edges.put childRunId value (some version) = (some (version + 1), after) ∧
        after.get childRunId = some ⟨value, version + 1⟩ ∧
        FileStep (edges.get childRunId) (after.get childRunId) := by
  rcases Files.put_known known with refused | ⟨_, found, rfl, marked, written⟩
  · exact .inl refused
  · refine .inr ⟨_, written, get_insert_self _ _ _, ?_⟩
    rw [found, get_insert_self]
    exact .written value (marked ▸ unreleased)

/-- What a step of a run does to the world. -/
structure WorldStep (env : StoreEnv) (call : CloseCall) (tree : TreeReservationState)
    (before after : EdgeWorld) : Prop where
  reached : (turnStore env).Reachable anyStep after.turns
  accounted : Accounted call tree after
  file : FileStep (before.edges.get call.childRunId) (after.edges.get call.childRunId)
  kept : GivenBack call tree before.turns → GivenBack call tree after.turns

theorem WorldStep.refl (reached : (turnStore env).Reachable anyStep world.turns)
    (accounted : Accounted call tree world) : WorldStep env call tree world world :=
  ⟨reached, accounted, .same _, id⟩

/-- A step of the edge file alone: as long as nothing is given back the edge must not claim
that it was. -/
theorem WorldStep.ofFile (reached : (turnStore env).Reachable anyStep world.turns)
    (accounted : Accounted call tree world) {edges : EdgeDir}
    (file : FileStep (world.edges.get call.childRunId) (edges.get call.childRunId))
    (unreleased : ¬ GivenBack call tree world.turns → ∃ current,
      edges.get call.childRunId = some current ∧ current.value.reservationRelease ≠ .released) :
    WorldStep env call tree world { world with edges } := by
  refine ⟨reached, ?_, file, id⟩
  rcases accounted with held | ⟨given, spent | closed⟩
  · exact .inl ⟨held.rooted, held.counted, held.unmarked, unreleased held.not_givenBack⟩
  · exact .inr ⟨given, .inl spent⟩
  · exact .inr ⟨given, .inr (closed.afterStep file)⟩

theorem spent_of_inTime (inTime : call.inTime world = true)
    (remembered : Spent call world.turns ∨ Closed (world.edges.get call.childRunId)) :
    Spent call world.turns := by
  rcases remembered with spent | closed
  · exact spent
  rcases Bool.or_eq_true _ _ |>.mp inTime with unreleased | marked
  · obtain ⟨file, found, differs⟩ := (Option.any_eq_true _ _).mp unreleased
    exact absurd (closed file found) (of_decide_eq_true differs)
  · exact .inr (of_decide_eq_true marked)

namespace Closer

/-- What a run keeps with its next access: the accounts of the world and what it knows. -/
def Sound (env : StoreEnv) (call : CloseCall) (tree : TreeReservationState) (world : EdgeWorld)
    (result : EdgeWorld × Closer) : Prop :=
  WorldStep env call tree world result.1 ∧
    result.2.Knows (result.1.edges.get call.childRunId) (GivenBack call tree result.1.turns)

variable (reached : (turnStore env).Reachable anyStep world.turns)
  (accounted : Accounted call tree world)

include reached accounted

variable {version : Nat} {seen : Cell AwaitEdge}

theorem releasing_sound (known : MarkedAt version .claimed (world.edges.get call.childRunId))
    (inTime : call.inTime world = true) :
    Sound env call tree world ((releasing version).run call world) := by
  have after := turnStore.reachable_apply reached (.releaseTreeDescendants call.scope
    call.treeRootRunId 1 call.childRunId) trivial trivial
  have step : WorldStep env call tree world { world with
      turns := (world.turns.releaseTreeDescendants call.scope call.treeRootRunId 1
        call.childRunId).2 } ∧
      GivenBack call tree (world.turns.releaseTreeDescendants call.scope call.treeRootRunId 1
        call.childRunId).2 := by
    rcases accounted with held | ⟨given, remembered⟩
    · obtain ⟨given, spent⟩ := held.release reached rfl
      exact ⟨⟨after, .inr ⟨given, .inl spent⟩, .same _, fun _ => given⟩, given⟩
    · have spent := spent_of_inTime inTime remembered
      rw [spent.release reached]
      exact ⟨.refl reached (.inr ⟨given, .inl spent⟩), given⟩
  unfold run
  cases answer : world.turns.releaseTreeDescendants call.scope call.treeRootRunId 1
    call.childRunId with
  | mk result =>
    rw [answer] at step
    cases result with
    | ok => exact ⟨step.1, step.2, known⟩
    | error => exact ⟨step.1, trivial⟩

theorem claimWriting_sound
    (known : MarkedAt seen.version .unclaimed (world.edges.get call.childRunId)) :
    Sound env call tree world ((claimWriting seen).run call world) := by
  simp only [run]
  rcases put_marked known (by decide) (seen.value.withRelease .claimed) with
    refused | ⟨edges, written, found, file⟩
  · rw [refused]
    exact ⟨.refl reached accounted, trivial⟩
  · rw [written]
    refine ⟨.ofFile reached accounted file fun _ => ⟨_, found, by simp⟩, ?_⟩
    change MarkedAt _ _ (edges.get call.childRunId)
    rw [found]
    exact MarkedAt.ofRead rfl

theorem markWriting_sound (known : (markWriting seen).Knows (world.edges.get call.childRunId)
      (GivenBack call tree world.turns)) :
    Sound env call tree world ((markWriting seen).run call world) := by
  simp only [run]
  rcases put_marked known.2 (by decide) (seen.value.withRelease .released) with
    refused | ⟨_, written, found, file⟩
  · rw [refused]
    exact ⟨.refl reached accounted, trivial⟩
  · rw [written]
    refine ⟨.ofFile reached accounted file (absurd known.1), fun current present => ?_⟩
    cases found.symm.trans present
    rfl

theorem unclaimWriting_sound {error : AwaitEdgeStoreError}
    (known : MarkedAt seen.version .claimed (world.edges.get call.childRunId)) :
    Sound env call tree world ((unclaimWriting error seen).run call world) := by
  simp only [run]
  rcases put_marked known (by decide) (seen.value.withRelease .unclaimed) with
    refused | ⟨_, written, found, file⟩
  · rw [refused]
    exact ⟨.refl reached accounted, trivial⟩
  · rw [written]
    exact ⟨.ofFile reached accounted file fun _ => ⟨_, found, by simp⟩, trivial⟩

theorem pruning_sound (closed : Closed (world.edges.get call.childRunId)) :
    Sound env call tree world ((pruning version).run call world) := by
  have given := accounted.givenBack closed
  have after := turnStore.reachable_apply reached (.pruneReleasedChild call.scope
    call.treeRootRunId call.childRunId) trivial trivial
  have kept := descendantCount_prune call world.turns
  unfold run
  cases answer : world.turns.pruneReleasedChild call.scope call.treeRootRunId
    call.childRunId with
  | mk result turns =>
    rw [StoreOp.apply, answer] at after
    rw [answer] at kept
    have same : GivenBack call tree turns ↔ GivenBack call tree world.turns := by
      unfold GivenBack
      rw [kept]
    have step : WorldStep env call tree world { world with turns } :=
      ⟨after, .inr ⟨same.mpr given, .inr closed⟩, .same _, same.mpr⟩
    cases result with
    | ok => exact ⟨step, closed⟩
    | error => exact ⟨step, trivial⟩

theorem deleting_sound (closed : Closed (world.edges.get call.childRunId)) :
    Sound env call tree world ((deleting version).run call world) := by
  have given := accounted.givenBack closed
  refine ⟨.ofFile reached accounted ?_ (absurd given), trivial⟩
  rcases Files.deleteIf_cases call.childRunId version world.edges with same | removed
  · rw [same]
    exact .same _
  · rw [removed, get_remove_self]
    cases found : world.edges.get call.childRunId with
    | none => exact .same _
    | some current => exact .deleted (closed current found)

theorem run_sound {closer : Closer}
    (knows : closer.Knows (world.edges.get call.childRunId) (GivenBack call tree world.turns))
    (inTime : ∀ version, closer = releasing version → call.inTime world = true) :
    Sound env call tree world (closer.run call world) := by
  have still := WorldStep.refl reached accounted
  cases closer with
  | reading => exact ⟨still, knows_afterRead _ _⟩
  | claimReading => exact ⟨still, knows_afterClaimRead _ _⟩
  | claimWriting => exact claimWriting_sound reached accounted knows
  | releasing => exact releasing_sound reached accounted knows (inTime _ rfl)
  | markReading => exact ⟨still, knows_afterMarkRead call knows⟩
  | markWriting => exact markWriting_sound reached accounted knows
  | adopting => exact ⟨still, knows_afterAdoptRead call _ _⟩
  | unclaimReading => exact ⟨still, knows_afterUnclaimRead _ _ _⟩
  | unclaimWriting => exact unclaimWriting_sound reached accounted knows
  | pruning => exact pruning_sound reached accounted knows
  | deleting => exact deleting_sound reached accounted knows
  | pruningRoster | ended | crashed => exact ⟨still, trivial⟩

end Closer

end

/-! ## Whole runs -/

namespace closeRace

/-- The accounts of the world and what each run knows. -/
structure Invariant {ι : Type} (env : StoreEnv) (call : CloseCall) (tree : TreeReservationState)
    (state : CloseState ι) : Prop where
  reached : (turnStore env).Reachable anyStep state.turns
  accounted : Accounted call tree state.toEdgeWorld
  knows : ∀ closer, (state.closers closer).Knows (state.edges.get call.childRunId)
    (GivenBack call tree state.turns)

variable {ι : Type} [DecidableEq ι] {env : StoreEnv} {call : CloseCall}
  {tree : TreeReservationState} {start : EdgeWorld} {state : CloseState ι}

theorem Invariant.afterStep (invariant : Invariant env call tree state) {world : EdgeWorld}
    (step : WorldStep env call tree state.toEdgeWorld world) (closer : ι) {next : Closer}
    (knows : next.Knows (world.edges.get call.childRunId) (GivenBack call tree world.turns)) :
    Invariant env call tree ⟨world, update state.closers closer next⟩ where
  __ := step
  knows other := by
    by_cases same : other = closer
    · subst same
      simpa using knows
    · simpa [same] using (invariant.knows other).afterStep step.file step.kept

theorem Invariant.apply (invariant : Invariant env call tree state) (label : CloseLabel ι)
    (allowed : state.releasesInTime call label = true) :
    Invariant env call tree (state.apply call label) := by
  have sound : ∀ closer, label.caller = some closer → Closer.Sound env call tree state.toEdgeWorld
        ((state.closers closer).run call state.toEdgeWorld) := by
    intro closer acting
    refine Closer.run_sound invariant.reached invariant.accounted (invariant.knows closer) ?_
    intro _ phase
    simpa [releasesInTime, acting, phase] using allowed
  have still := WorldStep.refl invariant.reached invariant.accounted
  cases label with
  | run closer =>
    obtain ⟨step, knows⟩ := sound closer rfl
    exact invariant.afterStep step closer knows
  | fail closer applied =>
    cases applied with
    | true => exact invariant.afterStep (sound closer rfl).1 closer (Closer.knows_failed _ _ _)
    | false => exact invariant.afterStep still closer (Closer.knows_failed _ _ _)
  | crash => exact invariant.afterStep still _ (Closer.knows_crash ..)

/-- A child that is counted when its edge is closed is given back exactly once, in every run
in which no release call is late. -/
theorem released_once (reachedStart : (turnStore env).Reachable anyStep start.turns)
    (held : Held call tree start) (reached : (closeRace ι call start).Reachable
      (fun state label => state.releasesInTime call label = true) state) :
    ReleasedOnce call start state := by
  have invariant := reached.invariant (Invariant env call tree) ?_ ?_
  · intro deleted _
    have before : start.turns.descendantCount call.tree = tree.count :=
      congrArg count (treeState_of_get held.counted)
    rw [before]
    refine invariant.accounted.givenBack fun file found => ?_
    rw [show state.edges.get call.childRunId = some file from found] at deleted
    cases deleted
  · rintro _ rfl
    exact ⟨reachedStart, .inl held, fun _ => trivial⟩
  · rintro _ label _ invariant allowed rfl
    exact invariant.apply label allowed

/-! ## Two runs -/

/-- The edge of one child in a tree of two. -/
def sampleCall : CloseCall where
  scope := turnStore.sampleScope .actorFallback
  parentRunId := ⟨1⟩
  treeRootRunId := ⟨1⟩
  childRunId := ⟨9⟩

def sampleEdge : AwaitEdge where
  parentRunContext := ⟨turnStore.sampleScope .actorFallback, some ⟨⟨"user"⟩⟩, ⟨1⟩⟩
  treeRootRunId := ⟨1⟩
  gateRef := ⟨"gate:subagent"⟩
  sourceBindingRef := ⟨"source"⟩
  replyTargetBindingRef := ⟨"reply"⟩
  mode := .blocking
  state := .settled
  terminalKind := some .completed
  terminalByteLen := none
  terminalReason := none
  reservationRelease := .unclaimed

def sampleStart : EdgeWorld where
  edges := empty.insert ⟨9⟩ ⟨sampleEdge, 1⟩
  turns := talliedStore.reservedState.1

theorem sampleStart_reachable :
    (turnStore turnStore.sampleEnv).Reachable anyStep sampleStart.turns :=
  turnStore.reachable_apply
    (turnStore.reachable_apply (.start ⟨.default, rfl⟩) turnStore.firstSubmission trivial trivial)
    (talliedStore.reserveSome 2) trivial trivial

/-- One run does all of it, and a second one comes after the deletion. -/
def orderlyLabels : List (CloseLabel Bool) := List.replicate 9 (.run false) ++ [.run true]

def orderlyState : CloseState Bool :=
  orderlyLabels.foldl (apply sampleCall) ⟨sampleStart, fun _ => .reading⟩

theorem orderly_close_releases_once :
    (orderlyState.edges.get ⟨9⟩ = none ∧ ∀ closer, (orderlyState.closers closer).isOver = true) ∧
      orderlyState.turns.descendantCount sampleCall.tree = 1 ∧
      ReleasedOnce sampleCall sampleStart orderlyState := by
  have first : (closeRace Bool sampleCall sampleStart).Reachable
      (fun state label => state.releasesInTime sampleCall label = true)
      ⟨sampleStart, fun _ => .reading⟩ := .start rfl
  have held : Held sampleCall ⟨2, ∅⟩ sampleStart :=
    ⟨⟨_, rfl⟩, by decide, by decide, ⟨sampleEdge, 1⟩, rfl, by decide⟩
  exact ⟨⟨by decide, by decide⟩, by decide,
    released_once sampleStart_reachable held (first.followAllowed orderlyLabels (by decide))⟩

/-- The second run reads the claimed edge and stalls before its release call, while the
first one finishes. -/
def stalledLabels : List (CloseLabel Bool) :=
  List.replicate 3 (.run false) ++ [.run true] ++ List.replicate 6 (.run false) ++
    List.replicate 2 (.run true)

def stalledState : CloseState Bool :=
  stalledLabels.foldl (apply sampleCall) ⟨sampleStart, fun _ => .reading⟩

/-- The late release finds the marker pruned and takes the other child's reservation. -/
theorem stalled_close_releases_twice :
    (closeRace Bool sampleCall sampleStart).Reachable anyStep stalledState ∧
      stalledState.turns.descendantCount sampleCall.tree = 0 ∧
      ¬ ReleasedOnce sampleCall sampleStart stalledState := by
  have first : (closeRace Bool sampleCall sampleStart).Reachable anyStep
      ⟨sampleStart, fun _ => .reading⟩ := .start rfl
  refine ⟨first.follow stalledLabels, by decide, fun once => ?_⟩
  have total := once (by decide) (by decide)
  revert total
  decide

end closeRace

end Ironclaw.Subagent
