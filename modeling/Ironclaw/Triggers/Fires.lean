import Ironclaw.Lib.Fallible
import Ironclaw.Lib.System
import Ironclaw.Triggers.Repository

/-!
# At most one run for a slot

Each call moves the record of one trigger, and what it answers is entered in a log.  A
trigger's part of the log says which of its slots were claimed, accepted and ended; the
record bounds what the log can say next, and every move keeps that bound.
-/

namespace Ironclaw.Triggers

open HostApi Lib Turns Table TriggerRecord System
open List

/-! ## What a call tells -/

inductive FireEvent where
  /-- The trigger is stored, with a fire that is active from the start. -/
  | created (active : Option Timestamp)
  | claimed (slot : Timestamp)
  | accepted (slot : Timestamp) (runId : TurnRunId)
  | ended (slot : Timestamp)
  | completed
  | rescheduled
  deriving DecidableEq

def TriggerAnswer.tells (events : List FireEvent) : TriggerAnswer → List FireEvent
  | .ok (some _) => events
  | _ => []

/-- A trigger that becomes completed, or scheduled again. -/
def stateEvents (before? after? : Option TriggerRecord) : List FireEvent :=
  match after? with
  | none => []
  | some after =>
    if before?.map state = some after.state then []
    else
      match after.state with
      | .completed => [.completed]
      | .scheduled => if before?.isSome then [.rescheduled] else []
      | .paused => []

namespace TriggerOp

variable (library : ScheduleLibrary) (state : RepositoryState)

def answerEvents : TriggerOp → List FireEvent
  | .upsertTrigger clock record =>
    match (state.upsertTrigger library clock record).1 with
    | .ok () => [.created record.activeFireSlot]
    | .error _ => []
  | .claimDueFire request =>
    match (state.claimDueFire request).1 with
    | .claimed _ slot => [.claimed slot]
    | _ => []
  | .markFireAccepted clock request =>
    TriggerAnswer.tells [.accepted request.fireSlot request.runId]
      (state.markFireAccepted library clock request).1
  | .markFireReplayed clock request =>
    TriggerAnswer.tells [.accepted request.fireSlot request.originalRunId]
      (state.markFireReplayed library clock request).1
  | .markFireRetryableFailed clock request =>
    TriggerAnswer.tells [.ended request.fireSlot] (state.markFireRetryableFailed clock request).1
  | .markFirePermanentlyFailed clock request =>
    TriggerAnswer.tells [.ended request.fireSlot]
      (state.markFirePermanentlyFailed clock request).1
  | .markFireTerminallyFailed clock request =>
    TriggerAnswer.tells [.ended request.fireSlot] (state.markFireTerminallyFailed clock request).1
  | .clearActiveFire clock request =>
    TriggerAnswer.tells [.ended request.fireSlot] (state.clearActiveFire library clock request).1
  | _ => []

/-- What happened to the trigger of a call, the latest first. -/
def events (op : TriggerOp) : List FireEvent :=
  stateEvents (state.records.get op.key) ((op.apply library state).records.get op.key) ++
    op.answerEvents library state

end TriggerOp

/-! ## The log -/

/-- A trigger from its upsert on; an identifier that is upserted again names a new one. -/
structure Trigger where
  key : TriggerRepositoryKey
  life : Nat
  deriving DecidableEq

/-- The events of the triggers, the latest first. -/
abbrev FireLog := List (Trigger × FireEvent)

namespace FireLog

def isCreation : FireEvent → Bool
  | .created _ => true
  | _ => false

def lives (log : FireLog) (key : TriggerRepositoryKey) : Nat :=
  log.countP fun entry => decide (entry.1.key = key) && isCreation entry.2

/-- The events of the triggers that are taken for one. -/
def about {ι : Type} [DecidableEq ι] (identity : Trigger → ι) (log : FireLog) (subject : ι) :
    List FireEvent :=
  (log.filter fun entry => identity entry.1 = subject).map Prod.snd

def enter (library : ScheduleLibrary) (state : RepositoryState) (op : TriggerOp)
    (log : FireLog) : FireLog :=
  let told := op.events library state
  let trigger : Trigger := ⟨op.key, log.lives op.key + told.countP isCreation⟩
  told.map (Prod.mk trigger) ++ log

end FireLog

open FireLog

def triggerRepository (library : ScheduleLibrary) : System (RepositoryState × FireLog) TriggerOp :=
  withHistory
    (ofFunction (· = RepositoryState.empty) fun state op => op.apply library state) []
    (enter library)

/-- No call upserts an identifier that was upserted before. -/
def TriggerOp.NewTrigger (before : RepositoryState × FireLog) : TriggerOp → Prop
  | .upsertTrigger _ record => before.2.lives record.key = 0
  | _ => True

/-! ## Claims, acceptances and completions -/

/-- The slots that were claimed and have not ended. -/
def openFires : List FireEvent → List Timestamp
  | [] => []
  | .created active :: earlier => active.toList ++ openFires earlier
  | .claimed slot :: earlier => slot :: openFires earlier
  | .ended slot :: earlier => (openFires earlier).erase slot
  | _ :: earlier => openFires earlier

/-- What may be told after an earlier event of the same trigger: a later acceptance is for
a later slot unless it repeats the earlier one, and a completed trigger is neither claimed
nor scheduled again. -/
def FireEvent.MayFollow : (later earlier : FireEvent) → Prop
  | .accepted slot runId, .accepted earlierSlot earlierRun =>
    earlierSlot < slot ∨ earlierSlot = slot ∧ earlierRun = runId
  | .claimed _, .completed => False
  | .rescheduled, .completed => False
  | _, _ => True

/-- The history of a trigger that fires at most once for each slot. -/
structure FiresOnce (told : List FireEvent) : Prop where
  ordered : told.Pairwise FireEvent.MayFollow
  oneActive : (openFires told).length ≤ 1
  oneRun : ∀ slot first second, FireEvent.accepted slot first ∈ told →
    FireEvent.accepted slot second ∈ told → first = second

/-- How a call moves the record of a stored trigger, and what its answer tells. -/
inductive TriggerMove (before : TriggerRecord) : TriggerRecord → List FireEvent → Prop where
  | claimed {after : TriggerRecord} (scheduled : before.state = .scheduled)
      (idle : before.hasActiveFire = false) (active : after.activeFireSlot = some before.nextRunAt)
      (fresh : after.activeRunRef = none) (next : after.nextRunAt = before.nextRunAt)
      (state : after.state = before.state) :
      TriggerMove before after [.claimed before.nextRunAt]
  | repeated (slot : Timestamp) (runId : TurnRunId) (active : before.activeFireSlot = some slot)
      (run : before.activeRunRef = some runId) :
      TriggerMove before before [.accepted slot runId]
  | accepted {after : TriggerRecord} (slot : Timestamp) (runId : TurnRunId)
      (active : before.activeFireSlot = some slot) (fresh : before.activeRunRef = none)
      (stays : after.activeFireSlot = some slot) (run : after.activeRunRef = some runId)
      (state : after.state = before.state) :
      TriggerMove before after [.accepted slot runId]
  | failed {after : TriggerRecord} (slot : Timestamp) (active : before.activeFireSlot = some slot)
      (fresh : before.activeRunRef = none) (ends : after.activeFireSlot = none)
      (run : after.activeRunRef = none)
      (next : after.nextRunAt = before.nextRunAt ∨ slot < after.nextRunAt)
      (state : after.state = before.state ∨ after.state = .completed) :
      TriggerMove before after [.ended slot]
  | cleared {after : TriggerRecord} (slot : Timestamp) (runId : TurnRunId)
      (active : before.activeFireSlot = some slot) (run : before.activeRunRef = some runId)
      (ends : after.activeFireSlot = none) (noRun : after.activeRunRef = none)
      (next : slot < after.nextRunAt ∧ after.state = before.state ∨ after.state = .completed) :
      TriggerMove before after [.ended slot]
  | resting {after : TriggerRecord} (active : after.activeFireSlot = before.activeFireSlot)
      (run : after.activeRunRef = before.activeRunRef) (next : after.nextRunAt = before.nextRunAt)
      (final : before.state = .completed → after = { before with name := after.name })
      (unfinished : before.state ≠ .completed → after.state ≠ .completed) :
      TriggerMove before after []

/-! ## The record bounds the log -/

/-- What a stored record says about the events of its trigger. -/
structure Chronicle (record : TriggerRecord) (told : List FireEvent) : Prop where
  once : FiresOnce told
  active : openFires told = record.activeFireSlot.toList
  hasSlot : record.activeRunRef.isSome = true → record.activeFireSlot.isSome = true
  past : ∀ slot runId, FireEvent.accepted slot runId ∈ told →
    (∀ active, record.activeFireSlot = some active →
      slot < active ∨ slot = active ∧ record.activeRunRef = some runId) ∧
    (record.activeRunRef = none → record.state ≠ .completed → slot < record.nextRunAt)
  final : FireEvent.completed ∈ told → record.state = .completed
  idle : record.state = .completed → ∀ slot, record.activeFireSlot = some slot →
    FireEvent.created (some slot) ∈ told

/-- Acceptances of one slot are for one run. -/
def FireEvent.SameRun (first second : FireEvent) : Prop :=
  ∀ slot firstRun secondRun, first = .accepted slot firstRun → second = .accepted slot secondRun →
    firstRun = secondRun

instance : Std.Symm FireEvent.SameRun where
  symm _ _ same slot firstRun secondRun isFirst isSecond :=
    (same slot secondRun firstRun isSecond isFirst).symm

theorem FireEvent.MayFollow.sameRun {later earlier : FireEvent}
    (follows : later.MayFollow earlier) : later.SameRun earlier := by
  rintro slot _ _ rfl rfl
  rcases follows with before | same
  · exact absurd before (Int.lt_irrefl slot)
  · exact same.2.symm

theorem FiresOnce.of_ordered {told : List FireEvent} (ordered : told.Pairwise FireEvent.MayFollow)
    (oneActive : (openFires told).length ≤ 1) : FiresOnce told where
  ordered
  oneActive
  oneRun slot first second firstTold secondTold := by
    have agree : told.Pairwise FireEvent.SameRun := ordered.imp FireEvent.MayFollow.sameRun
    refine agree.forall_of_forall ?_ firstTold secondTold slot first second rfl rfl
    intro _ _ _ _ _ isFirst isSecond
    cases isFirst.symm.trans isSecond
    rfl

variable {new : List FireEvent}

namespace Chronicle

variable {record before after : TriggerRecord} {told : List FireEvent}

theorem openFires_length (active : openFires told = record.activeFireSlot.toList) :
    (openFires told).length ≤ 1 := by
  rw [active]
  cases record.activeFireSlot <;> simp

theorem created
    (hasSlot : record.activeRunRef.isSome = true → record.activeFireSlot.isSome = true) :
    Chronicle record [.created record.activeFireSlot] where
  once := .of_ordered (pairwise_singleton _ _)
    (@openFires_length record _ (append_nil _))
  active := append_nil _
  hasSlot
  past _ _ := nofun
  final := nofun
  idle _ slot active := by simp [active]

section

variable (chronicle : Chronicle before told)

include chronicle

theorem claim (scheduled : before.state = .scheduled) (idle : before.hasActiveFire = false)
    (active : after.activeFireSlot = some before.nextRunAt) (fresh : after.activeRunRef = none)
    (next : after.nextRunAt = before.nextRunAt) (state : after.state = before.state) :
    Chronicle after (.claimed before.nextRunAt :: told) := by
  obtain ⟨noSlot, noRun⟩ : before.activeFireSlot = none ∧ before.activeRunRef = _ := by
    simpa [hasActiveFire] using idle
  have uncompleted : before.state ≠ .completed := by simp [scheduled]
  have opens : openFires (.claimed before.nextRunAt :: told) = after.activeFireSlot.toList := by
    rw [openFires, chronicle.active, noSlot, active]
    rfl
  refine ⟨.of_ordered (pairwise_cons.mpr ⟨?_, chronicle.once.ordered⟩)
    (openFires_length opens), opens, ?_, ?_, ?_, fun completed => ?_⟩
  · intro earlier member
    cases earlier with
    | completed => exact absurd (chronicle.final member) uncompleted
    | _ => trivial
  · simp [fresh]
  · rintro slot runId (_ | ⟨_, member⟩)
    have past := (chronicle.past slot runId member).2 noRun uncompleted
    rw [active, next]
    refine ⟨fun claimed same => .inl ?_, fun _ _ => past⟩
    exact Option.some.inj same ▸ past
  · rintro (_ | ⟨_, member⟩)
    exact absurd (chronicle.final member) uncompleted
  · exact absurd (state.symm.trans completed) uncompleted

/-- An acceptance is for the active slot, which is after all accepted ones or the last of
them. -/
theorem acceptance {slot : Timestamp} {runId : TurnRunId}
    (wasActive : before.activeFireSlot = some slot)
    (run : before.activeRunRef = none ∨ before.activeRunRef = some runId)
    (active : after.activeFireSlot = some slot) (ran : after.activeRunRef = some runId)
    (state : after.state = before.state) : Chronicle after (.accepted slot runId :: told) := by
  have earlier : ∀ other otherRun, FireEvent.accepted other otherRun ∈ told →
      other < slot ∨ other = slot ∧ otherRun = runId := by
    intro other otherRun member
    refine ((chronicle.past other otherRun member).1 slot wasActive).imp_right fun same => ?_
    rcases run with fresh | same'
    · cases fresh.symm.trans same.2
    · exact ⟨same.1, Option.some.inj (same.2.symm.trans same')⟩
  have opens : openFires (.accepted slot runId :: told) = after.activeFireSlot.toList := by
    rw [active, ← wasActive]
    exact chronicle.active
  refine ⟨.of_ordered (pairwise_cons.mpr ⟨?_, chronicle.once.ordered⟩)
    (openFires_length opens), opens, ?_, ?_, ?_, ?_⟩
  · intro event member
    cases event with
    | accepted other otherRun => exact earlier other otherRun member
    | _ => trivial
  · rw [active]
    exact fun _ => rfl
  · intro other otherRun member
    refine ⟨fun claimed same => ?_, fun fresh => ?_⟩
    · cases active.symm.trans same
      obtain _ | ⟨_, member⟩ := member
      · exact .inr ⟨rfl, ran⟩
      · rcases earlier other otherRun member with before | ⟨rfl, rfl⟩
        · exact .inl before
        · exact .inr ⟨rfl, ran⟩
    · cases fresh.symm.trans ran
  · rintro (_ | ⟨_, member⟩)
    exact state.trans (chronicle.final member)
  · intro completed other same
    refine mem_cons_of_mem _ (chronicle.idle (state.symm.trans completed) other ?_)
    exact wasActive.trans (active.symm.trans same)

/-- An active fire ends; later claims are for later slots, or there are none. -/
theorem ending {slot : Timestamp} (wasActive : before.activeFireSlot = some slot)
    (active : after.activeFireSlot = none) (fresh : after.activeRunRef = none)
    (final : before.state = .completed → after.state = .completed)
    (past : ∀ other runId, FireEvent.accepted other runId ∈ told → after.state ≠ .completed →
      other < after.nextRunAt) : Chronicle after (.ended slot :: told) := by
  have opens : openFires (.ended slot :: told) = after.activeFireSlot.toList := by
    rw [openFires, chronicle.active, wasActive, active]
    simp
  refine ⟨.of_ordered (pairwise_cons.mpr ⟨?_, chronicle.once.ordered⟩)
    (openFires_length opens), opens, ?_, ?_, ?_, ?_⟩
  · exact fun _ _ => trivial
  · simp [fresh]
  · rintro other runId (_ | ⟨_, member⟩)
    refine ⟨fun claimed same => ?_, fun _ => past other runId member⟩
    cases active.symm.trans same
  · rintro (_ | ⟨_, member⟩)
    exact final (chronicle.final member)
  · intro _ other same
    cases active.symm.trans same

theorem move (move : TriggerMove before after new) : Chronicle after (new ++ told) := by
  cases move with
  | claimed scheduled idle active fresh next state =>
    exact chronicle.claim scheduled idle active fresh next state
  | repeated slot runId active run => exact chronicle.acceptance active (.inr run) active run rfl
  | accepted slot runId active fresh stays run state =>
    exact chronicle.acceptance active (.inl fresh) stays run state
  | failed slot active fresh ends run next state =>
    refine chronicle.ending active ends run ?_ ?_
    · intro completed
      exact state.elim (fun same => same.trans completed) id
    · intro other runId member uncompleted
      have same := state.resolve_right uncompleted
      obtain ⟨below, due⟩ := chronicle.past other runId member
      rcases next with kept | later
      · rw [kept]
        exact due fresh (same ▸ uncompleted)
      · have before := (below slot active).resolve_right fun accepted => by
          cases fresh.symm.trans accepted.2
        exact before.trans later
  | cleared slot runId active run ends noRun next =>
    refine chronicle.ending active ends noRun ?_ ?_
    · intro completed
      exact next.elim (fun same => same.2.trans completed) id
    · intro other otherRun member uncompleted
      obtain ⟨later, _⟩ := next.resolve_right uncompleted
      rcases (chronicle.past other otherRun member).1 slot active with before | same
      · exact before.trans later
      · exact same.1 ▸ later
  | resting active run next final unfinished =>
    have completed : after.state = .completed → before.state = .completed :=
      not_imp_not.mp unfinished
    have stays : before.state = .completed → after.state = .completed := by
      intro completed
      rw [final completed]
      exact completed
    refine ⟨chronicle.once, active ▸ chronicle.active, ?_, ?_,
      fun member => stays (chronicle.final member), ?_⟩
    · rw [run, active]
      exact chronicle.hasSlot
    · intro slot runId member
      rw [active, run, next]
      obtain ⟨below, due⟩ := chronicle.past slot runId member
      exact ⟨below, fun fresh uncompleted => due fresh fun ended => uncompleted (stays ended)⟩
    · rw [active]
      exact fun ended => chronicle.idle (completed ended)

end

/-- What became of the state of a trigger is told after the move. -/
theorem note (chronicle : Chronicle record told) (before? : Option TriggerRecord) :
    Chronicle record (stateEvents before? (some record) ++ told) := by
  -- Neither event opens or closes a fire, and only a completion binds what comes later.
  have add : ∀ event, openFires (event :: told) = openFires told →
      (∀ slot runId, event ≠ .accepted slot runId) →
      (∀ earlier ∈ told, event.MayFollow earlier) →
      (event = .completed → record.state = .completed) → Chronicle record (event :: told) := by
    intro event opens other follows final
    have active := opens.trans chronicle.active
    refine ⟨.of_ordered (pairwise_cons.mpr ⟨follows, chronicle.once.ordered⟩)
      (openFires_length active), active, chronicle.hasSlot, ?_, ?_, ?_⟩
    · intro slot runId member
      exact chronicle.past slot runId
        ((mem_cons.mp member).resolve_left fun same => other slot runId same.symm)
    · intro member
      exact (mem_cons.mp member).elim (fun same => final same.symm) chronicle.final
    · intro completed slot active
      exact mem_cons_of_mem _ (chronicle.idle completed slot active)
  unfold stateEvents
  dsimp only
  cases now : record.state with
  | completed =>
    dsimp only
    split_ifs
    · exact chronicle
    · exact add .completed rfl (fun _ _ => FireEvent.noConfusion) (fun _ _ => trivial) fun _ => now
  | scheduled =>
    split_ifs
    · exact chronicle
    · refine add .rescheduled rfl (fun _ _ => FireEvent.noConfusion) ?_ FireEvent.noConfusion
      intro earlier member
      cases earlier with
      | completed => cases now.symm.trans (chronicle.final member)
      | _ => trivial
    · exact chronicle
  | paused => split_ifs <;> exact chronicle

end Chronicle

/-! ## Every call is a move -/

/-- What a call does to the triggers, with what its answer tells. -/
inductive TriggerEffect (op : TriggerOp) (before after : RepositoryState) :
    List FireEvent → Prop where
  | idle (same : after.records = before.records) : TriggerEffect op before after []
  | created (clock : Timestamp) (record : TriggerRecord)
      (upserts : op = .upsertTrigger clock record)
      (hasSlot : record.activeRunRef.isSome = true → record.activeFireSlot.isSome = true)
      (stored : after.records = before.records.insert op.key record) :
      TriggerEffect op before after [.created record.activeFireSlot]
  | removed (gone : after.records = before.records.remove op.key) : TriggerEffect op before after []
  | moved {new : List FireEvent} (record moved : TriggerRecord)
      (found : before.records.get op.key = some record) (move : TriggerMove record moved new)
      (stored : after.records = before.records.insert op.key moved) :
      TriggerEffect op before after new

variable {library : ScheduleLibrary} {record : TriggerRecord}

namespace RepositoryState

section

variable {library : ScheduleLibrary} {state : RepositoryState} {op : TriggerOp}

theorem updateClaimedFire_effect {fire : FireRef} (named : op.key = fire.key)
    {update : TriggerRecord → Except TriggerError TriggerRecord}
    (moves : ∀ record updated, record.activeFireSlot = some fire.fireSlot →
      update record = .ok updated → TriggerMove record updated new)
    {note : TriggerRecord → RepositoryState → RepositoryState}
    (noted : ∀ record state, (note record state).records = state.records) :
    TriggerEffect op state (withHistory note (state.updateClaimedFire fire update)).2
      (TriggerAnswer.tells new (withHistory note (state.updateClaimedFire fire update)).1) := by
  unfold updateClaimedFire
  cases found : state.records.get fire.key with
  | none => exact .idle rfl
  | some record =>
    dsimp only
    split_ifs with active
    · exact .idle rfl
    cases changed : update record with
    | error => exact .idle rfl
    | ok updated =>
      refine .moved record updated (named ▸ found)
        (moves record updated (not_not.mp active) changed) ?_
      rw [named]
      exact noted updated _

variable {α : Type} {result : α} {rest : Except TriggerError α} (target : ScopedTrigger)

theorem rejectFailedResultAfterActiveRun_ok {activeRunRef : Option TurnRunId}
    (ok : (do rejectFailedResultAfterActiveRun activeRunRef; rest) = .ok result) :
    activeRunRef = none ∧ rest = .ok result := by
  cases activeRunRef with
  | none => exact ⟨rfl, ok⟩
  | some => cases ok

theorem rejectNonFutureNextRunAt_ok {fireSlot nextRunAt : Timestamp}
    (ok : (do rejectNonFutureNextRunAt fireSlot nextRunAt; rest) = .ok result) :
    fireSlot < nextRunAt ∧ rest = .ok result := by
  unfold rejectNonFutureNextRunAt at ok
  split at ok
  next future => exact ⟨future, ok⟩
  · cases ok

theorem acceptFire_move {clock fireSlot acceptedAt : Timestamp} {runId : TurnRunId}
    {updated : TriggerRecord} (active : record.activeFireSlot = some fireSlot)
    (accepts : acceptFire library clock fireSlot runId acceptedAt record = .ok updated) :
    TriggerMove record updated [.accepted fireSlot runId] := by
  unfold acceptFire at accepts
  split at accepts
  next run =>
    obtain ⟨_, kept, accepted⟩ := bind_eq_ok.mp accepts
    cases accepted
    unfold rejectRunRefRewrite at kept
    split at kept
    next same => exact .repeated fireSlot runId active (same ▸ run)
    · cases kept
  next run =>
    obtain ⟨next, _, accepts⟩ := bind_eq_ok.mp accepts
    cases next with
    | none =>
      cases accepts
      exact .accepted fireSlot runId active run rfl rfl rfl
    | some =>
      cases (rejectNonFutureNextRunAt_ok accepts).2
      exact .accepted fireSlot runId active run rfl rfl rfl

theorem claimDueFire_effect (request : ClaimDueFireRequest) :
    TriggerEffect (.claimDueFire request) state (state.claimDueFire request).2
      ((TriggerOp.claimDueFire request).answerEvents library state) := by
  dsimp only [TriggerOp.answerEvents]
  unfold claimDueFire
  cases found : state.records.get request.key with
  | none => exact .idle rfl
  | some record =>
    dsimp only
    split_ifs with due idle
    · exact .idle rfl
    · exact .idle rfl
    · simp only [ne_eq, not_or, not_not] at due
      refine .moved record _ found ?_ rfl
      rw [← due.2.1]
      exact .claimed due.1 (by simpa using idle) rfl rfl rfl rfl

theorem clearActiveFire_effect (strict : library.StrictlyAfter) (clock : Timestamp)
    (request : ClearActiveFireRequest) : TriggerEffect (.clearActiveFire clock request) state
      (state.clearActiveFire library clock request).2
      ((TriggerOp.clearActiveFire clock request).answerEvents library state) := by
  dsimp only [TriggerOp.answerEvents]
  unfold clearActiveFire
  cases found : state.records.get request.key with
  | none => exact .idle rfl
  | some record =>
    dsimp only
    split_ifs with fire
    · exact .idle rfl
    simp only [ne_eq, not_or, not_not] at fire
    cases slot : record.schedule.nextSlotAfter library clock request.fireSlot with
    | error => exact .idle rfl
    | ok next =>
      refine .moved record _ found
        (.cleared request.fireSlot request.runId fire.1 fire.2 rfl rfl ?_) rfl
      cases next with
      | none => exact .inr rfl
      | some => exact .inl ⟨TriggerSchedule.lt_of_nextSlotAfter strict slot, rfl⟩

theorem setScopedTriggerState_effect (newState : TriggerState) :
    TriggerEffect (.setScopedTriggerState target newState) state
      (state.setScopedTriggerState target newState).2 [] := by
  unfold setScopedTriggerState
  cases settable : validateUserSettableTriggerState newState with
  | error => exact .idle rfl
  | ok =>
    cases found : state.records.get target.key with
    | none => exact .idle rfl
    | some record =>
      dsimp only
      split_ifs with allowed
      · refine .moved record { record with state := newState } found
          (.resting rfl rfl rfl (fun completed => ?_) fun _ => ?_) rfl
        · exact absurd completed allowed.2
        · rintro rfl
          cases settable
      · exact .idle rfl

theorem renameScopedTrigger_effect (name : AutomationName) :
    TriggerEffect (.renameScopedTrigger target name) state
      (state.renameScopedTrigger target name).2 [] := by
  unfold renameScopedTrigger
  cases found : state.records.get target.key with
  | none => exact .idle rfl
  | some record =>
    dsimp only
    split_ifs
    · exact .moved record { record with name := name.value } found
        (.resting rfl rfl rfl (fun _ => rfl) id) rfl
    · exact .idle rfl

theorem removeScopedTrigger_effect :
    TriggerEffect (.removeScopedTrigger target) state (state.removeScopedTrigger target).2 [] := by
  unfold removeScopedTrigger
  cases state.records.get target.key with
  | none => exact .idle rfl
  | some =>
    dsimp only
    split_ifs
    · exact .removed rfl
    · exact .idle rfl

theorem upsertTrigger_effect (clock : Timestamp) (record : TriggerRecord) :
    TriggerEffect (.upsertTrigger clock record) state (state.upsertTrigger library clock record).2
      ((TriggerOp.upsertTrigger clock record).answerEvents library state) := by
  unfold TriggerOp.answerEvents upsertTrigger
  dsimp only
  cases valid : record.validate library clock with
  | error => exact .idle rfl
  | ok =>
    refine .created clock record rfl (fun run => ?_) rfl
    unfold validate at valid
    iterate 4
      split at valid
      · cases valid
    rename_i consistent
    simpa [run, ← Option.isSome_iff_ne_none] using consistent

end

end RepositoryState

open RepositoryState in
theorem TriggerOp.apply_effect (strict : library.StrictlyAfter)
    (state : RepositoryState) (op : TriggerOp) :
    TriggerEffect op state (op.apply library state) (op.answerEvents library state) := by
  cases op with
  | upsertTrigger => exact upsertTrigger_effect _ _
  | removeTrigger => exact .removed rfl
  | removeScopedTrigger => exact removeScopedTrigger_effect _
  | setScopedTriggerState => exact setScopedTriggerState_effect _ _
  | renameScopedTrigger => exact renameScopedTrigger_effect _ _
  | claimDueFire => exact claimDueFire_effect _
  | markFireAccepted clock request | markFireReplayed clock request =>
    refine updateClaimedFire_effect rfl (fun record updated active accepts => ?_)
      fun _ _ => ?_
    · exact acceptFire_move active accepts
    · dsimp only [upsertRunningRunHistory]
      split <;> rfl
  | markFireRetryableFailed clock request =>
    refine updateClaimedFire_effect rfl (fun record updated active fails => ?_) fun _ _ => rfl
    obtain ⟨fresh, fails⟩ := rejectFailedResultAfterActiveRun_ok fails
    obtain rfl : failedFire record = updated := by
      split at fails
      · split at fails
        · cases fails
        · exact Except.ok.inj fails
      · exact Except.ok.inj fails
    exact .failed request.fireSlot active fresh rfl rfl (.inl rfl) (.inl rfl)
  | markFirePermanentlyFailed _ request =>
    refine updateClaimedFire_effect rfl (fun record updated active fails => ?_) fun _ _ => rfl
    obtain ⟨fresh, fails⟩ := rejectFailedResultAfterActiveRun_ok fails
    obtain ⟨future, fails⟩ := rejectNonFutureNextRunAt_ok fails
    cases fails
    exact .failed request.fireSlot active fresh rfl rfl (.inr future) (.inl rfl)
  | markFireTerminallyFailed _ request =>
    refine updateClaimedFire_effect rfl (fun record updated active fails => ?_) fun _ _ => rfl
    obtain ⟨fresh, fails⟩ := rejectFailedResultAfterActiveRun_ok fails
    cases fails
    exact .failed request.fireSlot active fresh rfl rfl (.inl rfl) (.inr rfl)
  | clearActiveFire => exact clearActiveFire_effect strict _ _

/-! ## The log of a run -/

namespace FireLog

variable {ι : Type} [DecidableEq ι] {identity : Trigger → ι}

theorem lives_entered (trigger : Trigger) (told : List FireEvent) (log : FireLog)
    (key : TriggerRepositoryKey) : lives (told.map (Prod.mk trigger) ++ log) key =
      log.lives key + if trigger.key = key then told.countP isCreation else 0 := by
  unfold lives
  rw [countP_append, countP_map, Nat.add_comm]
  split <;> simp [*, Function.comp_def]

end FireLog

theorem stateEvents_of_same (record? : Option TriggerRecord) :
    stateEvents record? record? = [] := by
  cases record? with
  | none => rfl
  | some => exact if_pos rfl

open FireLog (about isCreation lives lives_entered)

theorem creations_stateEvents (before? after? : Option TriggerRecord) :
    (stateEvents before? after?).countP isCreation = 0 := by
  fun_cases stateEvents before? after? <;> rfl

variable {after : TriggerRecord}

theorem TriggerMove.creations {before : TriggerRecord}
    (move : TriggerMove before after new) : new.countP isCreation = 0 := by
  cases move <;> rfl

theorem TriggerOp.creations_events (strict : library.StrictlyAfter)
    (state : RepositoryState) (op : TriggerOp) : (op.events library state).countP isCreation = 0 ∨
      (∃ clock record, op = .upsertTrigger clock record) ∧
        (op.events library state).countP isCreation = 1 := by
  have effect := op.apply_effect strict state
  unfold events
  rw [countP_append, creations_stateEvents]
  generalize op.answerEvents library state = new at effect ⊢
  cases effect with
  | idle | removed => exact .inl rfl
  | created clock record upserts => exact .inr ⟨⟨clock, record, upserts⟩, rfl⟩
  | moved _ _ _ move => exact .inl (by rw [move.creations])

/-- The log is orderly, and the stored records bound what it says of their triggers. -/
structure Recorded (state : RepositoryState) (log : FireLog) : Prop where
  bounded : ∀ entry ∈ log, 1 ≤ entry.1.life ∧ entry.1.life ≤ log.lives entry.1.key
  once : ∀ trigger, FiresOnce (log.about id trigger)
  stored : ∀ key record, state.records.get key = some record →
    1 ≤ log.lives key ∧ Chronicle record (log.about id ⟨key, log.lives key⟩)

namespace Recorded

variable {state after : RepositoryState} {log : FireLog}

theorem about_next (recorded : Recorded state log) (key : TriggerRepositoryKey) :
    log.about id ⟨key, log.lives key + 1⟩ = [] := by
  refine map_eq_nil_iff.mpr (filter_eq_nil_iff.mpr fun entry member => ?_)
  have bound := (recorded.bounded entry member).2
  simp only [id_eq, decide_eq_true_eq]
  intro same
  rw [same] at bound
  exact Nat.not_succ_le_self _ bound

theorem entered (recorded : Recorded state log) {trigger : Trigger} {told : List FireEvent}
    (life : trigger.life = log.lives trigger.key + told.countP isCreation)
    (lived : 1 ≤ trigger.life) {record : TriggerRecord}
    (stored : after.records = state.records.insert trigger.key record)
    (chronicle : Chronicle record (told ++ log.about id trigger)) :
    Recorded after (told.map (Prod.mk trigger) ++ log) := by
  have livesHere : lives (told.map (Prod.mk trigger) ++ log) trigger.key = trigger.life := by
    rw [lives_entered, if_pos rfl, life]
  have aboutAll : ∀ subject, about id (told.map (Prod.mk trigger) ++ log) subject =
      (if trigger = subject then told else []) ++ log.about id subject := by
    intro subject
    rw [about, filter_append, filter_map]
    split <;> simp [*, about, Function.comp_def]
  refine ⟨?_, ?_, ?_⟩
  · intro entry member
    rcases mem_append.mp member with new | old
    · obtain ⟨_, _, rfl⟩ := mem_map.mp new
      exact ⟨lived, livesHere.ge⟩
    · obtain ⟨least, bound⟩ := recorded.bounded entry old
      refine ⟨least, bound.trans ?_⟩
      rw [lives_entered]
      exact Nat.le_add_right _ _
  · intro subject
    rw [aboutAll]
    split
    next same => exact same ▸ chronicle.once
    · exact recorded.once subject
  · intro key other found
    rw [stored, get_insert] at found
    split at found
    next same =>
      subst same
      cases found
      rw [livesHere, aboutAll, if_pos rfl]
      exact ⟨lived, chronicle⟩
    next different =>
      have livesThere : lives (told.map (Prod.mk trigger) ++ log) key = log.lives key := by
        rw [lives_entered, if_neg (Ne.symm different)]
        rfl
      rw [livesThere, aboutAll, if_neg fun equal => different (congrArg Trigger.key equal).symm]
      exact recorded.stored key other found

theorem step (strict : library.StrictlyAfter) (recorded : Recorded state log) (op : TriggerOp) :
    Recorded (op.apply library state) (enter library state op log) := by
  have effect := op.apply_effect strict state
  unfold enter TriggerOp.events
  generalize op.answerEvents library state = new at effect ⊢
  cases effect with
  | idle same =>
    rw [same, stateEvents_of_same]
    exact ⟨recorded.bounded, recorded.once, same ▸ recorded.stored⟩
  | created _ record _ hasSlot stored =>
    have found : (op.apply library state).records.get op.key = some record := by
      rw [stored, get_insert_self]
    rw [found]
    have creations : (stateEvents (state.records.get op.key) (some record) ++
        [FireEvent.created record.activeFireSlot]).countP isCreation = 1 := by
      rw [countP_append, creations_stateEvents]
      rfl
    dsimp only
    rw [creations]
    refine recorded.entered (by rw [creations]) (Nat.le_add_left _ _) stored ?_
    rw [recorded.about_next, append_nil]
    exact (Chronicle.created hasSlot).note _
  | removed gone =>
    rw [gone, get_remove_self]
    refine ⟨recorded.bounded, recorded.once, fun key record found => ?_⟩
    rw [gone] at found
    exact recorded.stored key record (get_of_remove found)
  | moved record moved found move stored =>
    have foundAfter : (op.apply library state).records.get op.key = some moved := by
      rw [stored, get_insert_self]
    rw [found, foundAfter]
    have creations : (stateEvents (some record) (some moved) ++ new).countP
        isCreation = 0 := by
      rw [countP_append, creations_stateEvents, move.creations]
    dsimp only
    rw [creations]
    obtain ⟨lived, chronicle⟩ := recorded.stored op.key record found
    refine recorded.entered (by rw [creations]) lived stored ?_
    rw [append_assoc]
    exact (chronicle.move move).note _

end Recorded

/-! ## Every run -/

/-- At most one run for each slot of a trigger, where `identity` says which entries of the
log are about the same trigger. -/
structure FiresAtMostOnce {ι : Type} [DecidableEq ι] (identity : Trigger → ι)
    (library : ScheduleLibrary) (state : RepositoryState) (log : FireLog) : Prop where
  once : ∀ subject, FiresOnce (log.about identity subject)
  runHasSlot : ∀ key record, state.records.get key = some record →
    record.activeRunRef.isSome = true → record.activeFireSlot.isSome = true
  /-- A completed trigger with an active fire was stored with it. -/
  completedIdle : ∀ key record slot, state.records.get key = some record →
    record.state = .completed → record.activeFireSlot = some slot →
    FireEvent.created (some slot) ∈ log.about identity (identity ⟨key, log.lives key⟩)
  /-- Calls change nothing but the name of a completed trigger. -/
  completedRests : ∀ key record, state.records.get key = some record →
    record.state = .completed → record.activeFireSlot = none →
    ∀ op : TriggerOp, (∀ clock other, op ≠ .upsertTrigger clock other) →
    ∀ after, (op.apply library state).records.get key = some after →
      after = { record with name := after.name }

/-- A completed trigger without an active fire can only be renamed. -/
theorem TriggerMove.eq_of_completed {before : TriggerRecord}
    (move : TriggerMove before after new) (completed : before.state = .completed)
    (idle : before.activeFireSlot = none) : after = { before with name := after.name } := by
  cases move with
  | claimed scheduled => cases scheduled.symm.trans completed
  | repeated slot runId active | accepted slot runId active
  | failed slot active | cleared _ _ active => cases active.symm.trans idle
  | resting _ _ _ final => exact final completed

variable {state : RepositoryState}

theorem TriggerOp.apply_completed (strict : library.StrictlyAfter) {key : TriggerRepositoryKey}
    (found : state.records.get key = some record) (completed : record.state = .completed)
    (idle : record.activeFireSlot = none) {op : TriggerOp}
    (keeps : ∀ clock other, op ≠ .upsertTrigger clock other)
    (stored : (op.apply library state).records.get key = some after) :
    after = { record with name := after.name } := by
  have unchanged : state.records.get key = some after →
      after = { record with name := after.name } := by
    intro same
    cases found.symm.trans same
    rfl
  have effect := op.apply_effect strict state
  generalize op.answerEvents library state = new at effect
  cases effect with
  | idle same => exact unchanged (same ▸ stored)
  | created clock other upserts => exact absurd upserts (keeps clock other)
  | removed gone =>
    rw [gone] at stored
    exact unchanged (get_of_remove stored)
  | moved _ _ foundBefore move storedAfter =>
    rw [storedAfter, get_insert] at stored
    split at stored
    next same =>
      cases stored
      subst same
      cases found.symm.trans foundBefore
      exact move.eq_of_completed completed idle
    · exact unchanged stored

namespace triggerRepository

variable {library : ScheduleLibrary} {guard : RepositoryState × FireLog → TriggerOp → Prop}

theorem recorded (strict : library.StrictlyAfter) {state : RepositoryState × FireLog}
    (reached : (triggerRepository library).Reachable guard state) : Recorded state.1 state.2 := by
  refine reached.invariant (fun state => Recorded state.1 state.2) ?_ ?_
  · rintro ⟨_, log⟩ ⟨start, rfl⟩
    cases start
    refine ⟨fun _ member => absurd member not_mem_nil, fun _ => ?_, fun key record found => ?_⟩
    · exact .of_ordered .nil (Nat.zero_le 1)
    · cases found
  · rintro ⟨_, _⟩ op ⟨_, _⟩ recorded _ ⟨applied, logged⟩
    cases applied
    cases logged
    exact recorded.step strict op

theorem lives_le_one (strict : library.StrictlyAfter) {state : RepositoryState × FireLog}
    (reached : (triggerRepository library).Reachable TriggerOp.NewTrigger state)
    (key : TriggerRepositoryKey) : state.2.lives key ≤ 1 := by
  refine reached.invariant (fun state => ∀ key, lives state.2 key ≤ 1) ?_ ?_ key
  · rintro ⟨_, log⟩ ⟨_, rfl⟩ key
    exact Nat.zero_le 1
  · rintro ⟨before, log⟩ op ⟨_, _⟩ atMost new ⟨_, logged⟩ key
    cases logged
    change lives (enter library before op log) key ≤ 1
    unfold enter
    rw [lives_entered]
    rcases op.creations_events strict before with none | ⟨⟨_, record, rfl⟩, one⟩
    · rw [none, ite_self]
      exact atMost key
    · rw [one]
      split
      next same => rw [← show record.key = key from same, show lives log record.key = 0 from new]
      · exact atMost key

/-- In a run that upserts no identifier twice the entries of a trigger are the entries of
its identifier. -/
theorem about_key {log : FireLog} (recorded : Recorded state log)
    (atMost : ∀ key, log.lives key ≤ 1) (key : TriggerRepositoryKey) :
    log.about Trigger.key key = log.about id ⟨key, 1⟩ := by
  refine congrArg (map Prod.snd) (filter_congr fun entry member => ?_)
  obtain ⟨least, bound⟩ := recorded.bounded entry member
  have life : entry.1.life = 1 := Nat.le_antisymm (bound.trans (atMost _)) least
  refine decide_eq_decide.mpr ⟨fun same => ?_, fun same => congrArg Trigger.key same⟩
  show entry.1 = ⟨key, 1⟩
  rw [← same, ← life]

theorem firesAtMostOnce_of_recorded {ι : Type} [DecidableEq ι] {identity : Trigger → ι}
    (strict : library.StrictlyAfter) {log : FireLog}
    (recorded : Recorded state log) (once : ∀ subject, FiresOnce (log.about identity subject))
    (own : ∀ key record, state.records.get key = some record →
      log.about identity (identity ⟨key, log.lives key⟩) = log.about id ⟨key, log.lives key⟩) :
    FiresAtMostOnce identity library state log where
  once
  runHasSlot key record found := (recorded.stored key record found).2.hasSlot
  completedIdle key record slot found completed active := by
    rw [own key record found]
    exact (recorded.stored key record found).2.idle completed slot active
  completedRests _ _ found completed idle op keeps _ stored :=
    op.apply_completed strict found completed idle keeps stored

/-- Scheduled fires happen at most once for each slot: for a trigger from its upsert on, in
every run, and for its identifier, in every run that upserts no identifier twice. -/
theorem fires_at_most_once (library : ScheduleLibrary) (strict : library.StrictlyAfter)
    {state : RepositoryState} {log : FireLog} :
    ((triggerRepository library).Reachable anyStep (state, log) →
      FiresAtMostOnce id library state log) ∧
    ((triggerRepository library).Reachable TriggerOp.NewTrigger (state, log) →
      FiresAtMostOnce Trigger.key library state log) := by
  constructor
  · intro reached
    have recorded := recorded strict reached
    exact firesAtMostOnce_of_recorded strict recorded recorded.once fun _ _ _ => rfl
  · intro reached
    have recorded := recorded strict reached
    have atMost := lives_le_one strict reached
    have about := about_key recorded atMost
    refine firesAtMostOnce_of_recorded strict recorded (fun key => about key ▸ recorded.once _) ?_
    intro key record found
    have life : log.lives key = 1 :=
      Nat.le_antisymm (atMost key) (recorded.stored key record found).1
    rw [life]
    exact about key

/-! ## A one-shot trigger -/

/-- A library that knows one time zone and fires every minute. -/
def minutely : ScheduleLibrary where
  Tz := Unit
  Schedule := Unit
  parseTz _ := some ()
  fromStr _ := .ok ()
  upcoming _ instant := [instant + 60 * nanosPerSecond, instant + 120 * nanosPerSecond]
  nextAfter _ _ instant := some (instant + 60 * nanosPerSecond)

theorem minutely_strictlyAfter : minutely.StrictlyAfter := by
  intro _ _ instant _ after
  cases after
  exact Int.lt_add_of_pos_right instant (by decide)

def oneShotFire : FireRef := ⟨⟨"tenant"⟩, ⟨1⟩, 0⟩

def oneShot : TriggerRecord where
  triggerId := ⟨1⟩
  tenantId := ⟨"tenant"⟩
  creatorUserId := ⟨"user"⟩
  agentId := none
  projectId := none
  name := ['o', 'n', 'c', 'e']
  source := .schedule
  schedule := .once 0 []
  prompt := ['g', 'o']
  deliveryTarget := none
  state := .scheduled
  nextRunAt := 0
  lastRunAt := none
  lastFiredSlot := none
  lastStatus := none
  activeFireSlot := none
  activeRunRef := none
  createdAt := 0

/-- The trigger fires, its acceptance is repeated, its run ends, and it is neither claimed
nor resumed any more. -/
def oneShotCalls : List TriggerOp :=
  [.upsertTrigger 0 oneShot, .claimDueFire ⟨oneShotFire, 0⟩,
    .markFireAccepted 1 ⟨oneShotFire, ⟨7⟩, ⟨"thread"⟩, 1⟩,
    .markFireReplayed 2 ⟨oneShotFire, ⟨7⟩, none, 2⟩,
    .markFireAccepted 3 ⟨oneShotFire, ⟨8⟩, ⟨"thread"⟩, 3⟩,
    .clearActiveFire 4 ⟨oneShotFire, ⟨7⟩, .ok⟩, .claimDueFire ⟨oneShotFire, 5⟩,
    .setScopedTriggerState ⟨⟨"tenant"⟩, ⟨"user"⟩, none, none, ⟨1⟩⟩ .scheduled]

def oneShotRun : RepositoryState × FireLog :=
  oneShotCalls.foldl
    (fun state op => (op.apply minutely state.1, enter minutely state.1 op state.2))
    (.empty, [])

/-- Its one slot is accepted for one run, and the trigger ends completed. -/
theorem one_shot_fires_once : oneShotRun.2.about Trigger.key oneShot.key =
        [.completed, .ended 0, .accepted 0 ⟨7⟩, .accepted 0 ⟨7⟩, .claimed 0, .created none] ∧
      FiresAtMostOnce Trigger.key minutely oneShotRun.1 oneShotRun.2 := by
  refine ⟨by decide +kernel, (fires_at_most_once minutely minutely_strictlyAfter).2 ?_⟩
  have started : (triggerRepository minutely).Reachable TriggerOp.NewTrigger (.empty, []) :=
    .start ⟨rfl, rfl⟩
  refine System.Reachable.followHistory started oneShotCalls ?_
  exact ⟨rfl, trivial, trivial, trivial, trivial, trivial, trivial, trivial, trivial⟩

end triggerRepository

end Ironclaw.Triggers
