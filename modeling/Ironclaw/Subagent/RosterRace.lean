import Ironclaw.Subagent.CloseEdge
import Ironclaw.Subagent.RosterKeys

/-!
# Openers and pruners of one scope

`open` touches the roster marker of the scope before and after it writes an edge; the close
paths delete an edge and prune the marker when the parent has no edge left, and recovery
prunes it as well.  A touch gives up after two lost races, also when the second one was lost
to a deletion.  Any number of these calls interleave, each file access a step of its own.

A missing marker is never the end: whoever deleted it lists the edges afterwards, and
whoever writes an edge afterwards touches the marker once more.
-/

namespace Ironclaw.Subagent.Roster

open Lib Turns Function Files System Table

/-! ## Touching the marker -/

/-- The next access of `touch_roster_marker`, with the version it read. -/
inductive Touch where
  | reading
  | writing (expected : Option Nat)
  | rereading
  | rewriting (expected : Option Nat)

def markerVersion (key : RosterKey) (roster : Files RosterKey RosterKey) : Option Nat :=
  (roster.get key).map Cell.version

namespace Touch

/-- One access of the touch; `none` says that it has returned.  A mismatch of the second
write is taken for the touch of another caller. -/
def run (key : RosterKey) (roster : Files RosterKey RosterKey) :
    Touch → Files RosterKey RosterKey × Option Touch
  | .reading => (roster, some (.writing (markerVersion key roster)))
  | .writing expected =>
    match roster.put key key expected with
    | (some _, written) => (written, none)
    | (none, _) => (roster, some .rereading)
  | .rereading => (roster, some (.rewriting (markerVersion key roster)))
  | .rewriting expected => ((roster.put key key expected).2, none)

end Touch

/-! ## Calls -/

/-- The files of one scope and its marker, and the turn store the closes release at. -/
structure RosterWorld where
  roster : Files RosterKey RosterKey
  dirs : Table TurnRunId EdgeDir
  turns : Inner

namespace RosterWorld

variable (world : RosterWorld) (parentRunId : TurnRunId)

def dirOf : EdgeDir := (world.dirs.get parentRunId).getD .empty

def withDir (dir : EdgeDir) : RosterWorld :=
  { world with dirs := world.dirs.insert parentRunId dir }

/-- What `list_dir_bounded` answers at the directory of a parent. -/
def parentEmpty : Bool := decide ((world.dirOf parentRunId).keys = ∅)

/-- What `list_dir_bounded` answers at the root of the scope: a directory without files is
not listed. -/
def hasEntries : Bool := world.dirs.anyValue fun dir => decide (dir.keys ≠ ∅)

/-- An edge file exists under the scope. -/
def HasEdge : Prop :=
  ∃ parentRunId childRunId, ((world.dirOf parentRunId).get childRunId).isSome = true

end RosterWorld

inductive RosterCall where
  | openEdge (parentRunId childRunId : TurnRunId) (edge : AwaitEdge)
  | close (parentRunId childRunId : TurnRunId)
  | closeWithRelease (call : CloseCall)
  | pruneRosterMarker

/-- The next access of a call, with what it has read. -/
inductive RosterCaller where
  | idle
  | opening (touch : Touch) (parentRunId childRunId : TurnRunId) (edge : AwaitEdge)
  | writingEdge (parentRunId childRunId : TurnRunId) (edge : AwaitEdge)
  | closeReading (parentRunId childRunId : TurnRunId)
  | closeDeleting (parentRunId childRunId : TurnRunId) (version : Nat)
  | closing (call : CloseCall) (closer : Closer)
  | listingParent (parentRunId : TurnRunId)
  | markerReading
  | markerDeleting (version : Nat)
  | listingScope
  /-- The touch that `open` and the prune end with. -/
  | touching (touch : Touch)

namespace RosterCaller

def start : RosterCall → RosterCaller
  | .openEdge parentRunId childRunId edge => .opening .reading parentRunId childRunId edge
  | .close parentRunId childRunId => .closeReading parentRunId childRunId
  | .closeWithRelease call => .closing call .reading
  | .pruneRosterMarker => .markerReading

/-- A close run up to its roster prune, which the store's own prune replaces. -/
def afterCloser (call : CloseCall) : Closer → RosterCaller
  | .pruningRoster => .listingParent call.parentRunId
  | .ended _ | .crashed => .idle
  | closer => .closing call closer

def run (key : RosterKey) (world : RosterWorld) : RosterCaller → RosterWorld × RosterCaller
  | .idle => (world, .idle)
  | .opening touch parentRunId childRunId edge =>
    let result := touch.run key world.roster
    ({ world with roster := result.1 },
      result.2.elim (.writingEdge parentRunId childRunId edge) fun next =>
        .opening next parentRunId childRunId edge)
  | .writingEdge parentRunId childRunId edge =>
    -- An edge that is already there counts as opened.
    (world.withDir parentRunId ((world.dirOf parentRunId).put childRunId edge none).2,
      .touching .reading)
  | .closeReading parentRunId childRunId =>
    (world, ((world.dirOf parentRunId).get childRunId).elim .idle fun file =>
      .closeDeleting parentRunId childRunId file.version)
  | .closeDeleting parentRunId childRunId version =>
    (world.withDir parentRunId ((world.dirOf parentRunId).deleteIf childRunId version),
      .listingParent parentRunId)
  | .closing call closer =>
    let result := closer.run call ⟨world.dirOf call.parentRunId, world.turns⟩
    ({ world.withDir call.parentRunId result.1.edges with turns := result.1.turns },
      afterCloser call result.2)
  | .listingParent parentRunId =>
    (world, if world.parentEmpty parentRunId then .markerReading else .idle)
  | .markerReading => (world, (markerVersion key world.roster).elim .idle .markerDeleting)
  | .markerDeleting version =>
    ({ world with roster := world.roster.deleteIf key version }, .listingScope)
  | .listingScope => (world, if world.hasEntries then .touching .reading else .idle)
  | .touching touch =>
    let result := touch.run key world.roster
    ({ world with roster := result.1 }, result.2.elim .idle .touching)

end RosterCaller

structure RosterState (ι : Type) extends RosterWorld where
  callers : ι → RosterCaller

inductive RosterLabel (ι : Type) where
  /-- A caller with nothing under way starts a call. -/
  | call (caller : ι) (call : RosterCall)
  /-- The next access of a call. -/
  | run (caller : ι)
  /-- Somebody else changes the turn store the releases go to. -/
  | turnStore (next : Inner)

namespace RosterState

variable {ι : Type} [DecidableEq ι]

def apply (key : RosterKey) (state : RosterState ι) : RosterLabel ι → RosterState ι
  | .call caller call =>
    match state.callers caller with
    | .idle => { state with callers := update state.callers caller (.start call) }
    | _ => state
  | .run caller =>
    let result := (state.callers caller).run key state.toRosterWorld
    ⟨result.1, update state.callers caller result.2⟩
  | .turnStore next => { state with turns := next }

end RosterState

open RosterState

/-- An edge under the scope has the marker of the scope beside it. -/
def RosterWorld.Complete (key : RosterKey) (world : RosterWorld) : Prop :=
  world.HasEdge → (world.roster.get key).isSome = true

/-- Any number of callers of one scope, from files that are complete. -/
def rosterRuns (ι : Type) [DecidableEq ι] (key : RosterKey) :
    System (RosterState ι) (RosterLabel ι) :=
  .ofFunction (fun state => state.Complete key ∧ ∀ caller, state.callers caller = .idle)
    (apply key)

/-! ## Edges -/

theorem edges_of_closer (call : CloseCall) (world : EdgeWorld) (closer : Closer) :
    (closer.run call world).1.edges = world.edges ∨
      (∃ edge version, (closer.run call world).1.edges =
        (world.edges.put call.childRunId edge (some version)).2) ∨
      ∃ version, (closer.run call world).1.edges =
        world.edges.deleteIf call.childRunId version := by
  cases closer with
  | claimWriting seen | markWriting seen =>
    simp only [Closer.run]
    split
    next put => exact .inr (.inl ⟨_, _, (congrArg Prod.snd put).symm⟩)
    · exact .inl rfl
  | releasing | pruning releasedVersion =>
    simp only [Closer.run]
    split <;> exact .inl rfl
  | unclaimWriting => exact .inr (.inl ⟨_, _, rfl⟩)
  | deleting => exact .inr (.inr ⟨_, rfl⟩)
  | _ => exact .inl rfl

theorem present_of_closer {call : CloseCall} {world : EdgeWorld} {closer : Closer}
    {childRunId : TurnRunId}
    (present : ((closer.run call world).1.edges.get childRunId).isSome = true) :
    (world.edges.get childRunId).isSome = true := by
  rcases edges_of_closer call world closer with kept | ⟨_, _, written⟩ | ⟨_, deleted⟩
  · rwa [kept] at present
  · rw [written] at present
    exact present_of_put present
  · rw [deleted] at present
    exact present_of_deleteIf present

namespace RosterWorld

variable {world : RosterWorld}

theorem dirOf_withDir (parentRunId other : TurnRunId) (dir : EdgeDir) :
    (world.withDir parentRunId dir).dirOf other =
      if other = parentRunId then dir else world.dirOf other := by
  unfold dirOf withDir
  by_cases same : other = parentRunId
  · rw [if_pos same, same, get_insert_self, Option.getD_some]
  · rw [if_neg same, get_insert_of_ne _ _ same]

/-- Files that were all there before leave no edge that was not. -/
theorem hasEdge_of_withDir {parentRunId : TurnRunId} {dir : EdgeDir}
    (old : ∀ childRunId, (dir.get childRunId).isSome = true →
      ((world.dirOf parentRunId).get childRunId).isSome = true)
    (present : (world.withDir parentRunId dir).HasEdge) : world.HasEdge := by
  obtain ⟨other, childRunId, found⟩ := present
  rw [dirOf_withDir] at found
  split at found
  · exact ⟨parentRunId, childRunId, old childRunId found⟩
  · exact ⟨other, childRunId, found⟩

theorem hasEntries_of_hasEdge (present : world.HasEdge) : world.hasEntries = true := by
  obtain ⟨parentRunId, childRunId, found⟩ := present
  refine (anyValue_iff _ _).mpr ?_
  unfold dirOf at found
  cases listed : world.dirs.get parentRunId with
  | none => simp [listed] at found
  | some dir =>
    rw [listed, Option.getD_some] at found
    refine ⟨parentRunId, dir, listed, decide_eq_true fun empty => ?_⟩
    have member : childRunId ∈ dir.keys := mem_keys.mpr found
    rw [empty] at member
    exact absurd member (Finset.notMem_empty _)

end RosterWorld

/-! ## Who restores the marker -/

/-- The touch leaves a marker behind even if the marker is missing now. -/
def Touch.Restores : Touch → Prop
  | .rewriting expected => expected = none
  | _ => True

/-- The caller sees to it that a missing marker comes back while the scope has an edge. -/
def RosterCaller.Restores : RosterCaller → Prop
  | .listingScope => True
  | .touching touch => touch.Restores
  | _ => False

theorem Touch.run_cases (touch : Touch) (key : RosterKey) (roster : Files RosterKey RosterKey) :
    (touch.run key roster).1 = roster ∨ ((touch.run key roster).1.get key).isSome = true := by
  cases touch with
  | reading | rereading => exact .inl rfl
  | writing expected | rewriting expected =>
    rcases put_cases key key expected roster with refused | ⟨_, written⟩
    · exact .inl (by simp only [run, refused])
    · exact .inr (by simp [run, written])

/-- After an access of a touch that restores, the marker is there or the touch still
restores it. -/
theorem Touch.restores_run {touch : Touch} (restores : touch.Restores) (key : RosterKey)
    (roster : Files RosterKey RosterKey) : ((touch.run key roster).1.get key).isSome = true ∨
      ∃ next, (touch.run key roster).2 = some next ∧ next.Restores := by
  cases touch with
  | reading => exact .inr ⟨_, rfl, trivial⟩
  | writing expected =>
    rcases put_cases key key expected roster with refused | ⟨version, written⟩
    · exact .inr ⟨.rereading, by simp only [run, refused], trivial⟩
    · exact .inl (by simp [run, written])
  | rereading =>
    -- The version read now is stale only while somebody else's marker stands.
    cases found : roster.get key with
    | none => exact .inr ⟨_, rfl, by simp [Restores, markerVersion, found]⟩
    | some => exact .inl (by simp [run, found])
  | rewriting =>
    cases restores
    left
    rcases put_absent key key roster with ⟨present, kept⟩ | ⟨_, written⟩
    · simp only [run, kept]
      exact present
    · simp [run, written]

/-! ## What one access can do -/

/-- What one access of a caller can do to the marker and the edges: a caller that makes an
edge or deletes the marker restores afterwards, and one that restores goes on doing so
until the marker is there. -/
structure RosterStep (key : RosterKey) (world after : RosterWorld) (caller next : RosterCaller) :
    Prop where
  edges : after.HasEdge → world.HasEdge ∨ next.Restores
  marker : (world.roster.get key).isSome = true →
    (after.roster.get key).isSome = true ∨ next.Restores
  restores : caller.Restores → world.HasEdge → (after.roster.get key).isSome = true ∨ next.Restores

namespace RosterStep

variable {key : RosterKey} {world : RosterWorld}

theorem idle {caller next : RosterCaller} (passive : ¬caller.Restores) :
    RosterStep key world world caller next :=
  ⟨.inl, .inl, fun restores => absurd restores passive⟩

theorem shrinks {after : RosterWorld} {caller next : RosterCaller} (passive : ¬caller.Restores)
    (roster : after.roster = world.roster) (edges : after.HasEdge → world.HasEdge) :
    RosterStep key world after caller next :=
  ⟨fun present => .inl (edges present), fun present => .inl (roster ▸ present),
    fun restores => absurd restores passive⟩

theorem touch (touch : Touch) {caller : RosterCaller} (after : Option Touch → RosterCaller)
    (passive : caller.Restores → touch.Restores ∧
      ∀ next : Touch, next.Restores → (after (some next)).Restores) :
    RosterStep key world { world with roster := (touch.run key world.roster).1 } caller
      (after (touch.run key world.roster).2) where
  edges := .inl
  marker present := .inl <|
    (touch.run_cases key world.roster).elim (fun kept => by rwa [kept]) id
  restores restoring _ := by
    obtain ⟨restores, goesOn⟩ := passive restoring
    rcases touch.restores_run restores key world.roster with present | ⟨next, moved, later⟩
    · exact .inl present
    · rw [moved]
      exact .inr (goesOn next later)

end RosterStep

theorem RosterCaller.run_step (key : RosterKey) (world : RosterWorld) (caller : RosterCaller) :
    RosterStep key world (caller.run key world).1 caller (caller.run key world).2 := by
  cases caller with
  | idle | closeReading parentRunId childRunId | listingParent | markerReading => exact .idle id
  | opening touch parentRunId childRunId edge =>
    exact .touch touch (fun next => next.elim _ _) (fun restores => restores.elim)
  | writingEdge parentRunId =>
    exact ⟨fun _ => .inr trivial, .inl, fun restores => restores.elim⟩
  | closeDeleting =>
    exact .shrinks id rfl (RosterWorld.hasEdge_of_withDir fun _ => present_of_deleteIf)
  | closing =>
    refine .shrinks id rfl fun present => ?_
    exact RosterWorld.hasEdge_of_withDir (fun _ => present_of_closer) present
  | markerDeleting => exact ⟨.inl, fun _ => .inr trivial, fun restores => restores.elim⟩
  | listingScope =>
    refine ⟨.inl, .inl, fun _ present => .inr ?_⟩
    simp only [run, RosterWorld.hasEntries_of_hasEdge present, if_true]
    trivial
  | touching touch =>
    exact .touch touch (fun next => next.elim _ _) fun restores => ⟨restores, fun _ => id⟩

/-! ## Runs -/

/-- While the scope has an edge, its marker is there or somebody brings it back. -/
def RosterState.Guarded {ι : Type} (key : RosterKey) (state : RosterState ι) : Prop :=
  state.HasEdge → (state.roster.get key).isSome = true ∨ ∃ caller, (state.callers caller).Restores

theorem RosterState.guarded_apply {ι : Type} [DecidableEq ι] {key : RosterKey}
    {state : RosterState ι} (guarded : state.Guarded key) (label : RosterLabel ι) :
    (state.apply key label).Guarded key := by
  cases label with
  | call caller call =>
    simp only [apply]
    split
    next waiting =>
      intro present
      rcases guarded present with marked | ⟨other, restores⟩
      · exact .inl marked
      have different : other ≠ caller := by
        rintro rfl
        rw [waiting] at restores
        exact restores
      have kept := update_of_ne different (RosterCaller.start call) state.callers
      exact .inr ⟨other, (congrArg RosterCaller.Restores kept).mpr restores⟩
    · exact guarded
  | run caller =>
    have step := (state.callers caller).run_step key state.toRosterWorld
    have self : ((state.callers caller).run key state.toRosterWorld).2.Restores →
        ∃ other, ((state.apply key (.run caller)).callers other).Restores := by
      intro restores
      have moved := update_self caller
        ((state.callers caller).run key state.toRosterWorld).2 state.callers
      exact ⟨caller, (congrArg RosterCaller.Restores moved).mpr restores⟩
    intro present
    rcases step.edges present with earlier | restores
    · rcases guarded earlier with marked | ⟨other, restores⟩
      · exact (step.marker marked).imp_right self
      by_cases same : other = caller
      · subst same
        exact (step.restores restores earlier).imp_right self
      · have kept := update_of_ne same
          ((state.callers caller).run key state.toRosterWorld).2 state.callers
        exact .inr ⟨other, (congrArg RosterCaller.Restores kept).mpr restores⟩
    · exact .inr (self restores)
  | turnStore => exact guarded

/-- Once every call of a run has returned, an edge under the scope has its marker. -/
theorem rosterRuns.marker_of_edge {ι : Type} [DecidableEq ι] {key : RosterKey}
    {state : RosterState ι} (reached : (rosterRuns ι key).Reachable anyStep state)
    (returned : ∀ caller, state.callers caller = .idle) (present : state.HasEdge) :
    (state.roster.get key).isSome = true := by
  have guarded : state.Guarded key := by
    refine reached.invariant (RosterState.Guarded key) ?_ ?_
    · exact fun _ initial present => .inl (initial.1 present)
    · rintro before label _ guarded _ rfl
      exact before.guarded_apply guarded label
  rcases guarded present with marked | ⟨caller, restores⟩
  · exact marked
  · rw [returned caller] at restores
    exact restores.elim

section

def RosterState.fresh : RosterState Bool where
  roster := .empty
  dirs := .empty
  turns := .withLimits .default
  callers := fun _ => .idle

def sampleKey : RosterKey := ⟨⟨"tenant"⟩, ⟨"user"⟩, none, none⟩

/-- A pruner reads the marker between the opener's first touch and its edge, deletes it,
finds the edge and restores the marker. -/
def racedLabels : List (RosterLabel Bool) :=
  [.call true (.openEdge ⟨1⟩ ⟨9⟩ closeRace.sampleEdge), .run true, .run true,
    .call false .pruneRosterMarker, .run false, .run true, .run false, .run false, .run false,
    .run true, .run false, .run true, .run true, .run true]

def RosterState.raced : RosterState Bool := racedLabels.foldl (apply sampleKey) .fresh

theorem raced_marker_of_edge : (rosterRuns Bool sampleKey).Reachable anyStep .raced ∧
      (∀ caller, raced.callers caller = .idle) ∧ raced.HasEdge ∧
      (raced.roster.get sampleKey).isSome = true := by
  have started : (rosterRuns Bool sampleKey).Reachable anyStep .fresh := by
    refine .start ⟨fun ⟨parentRunId, childRunId, found⟩ => ?_, fun _ => rfl⟩
    cases found
  have reached : (rosterRuns Bool sampleKey).Reachable anyStep .raced := started.follow racedLabels
  have returned : ∀ caller, raced.callers caller = .idle := by
    intro caller
    cases caller <;> rfl
  have present : raced.HasEdge := ⟨⟨1⟩, ⟨9⟩, by decide⟩
  exact ⟨reached, returned, present, rosterRuns.marker_of_edge reached returned present⟩

end

end Ironclaw.Subagent.Roster
