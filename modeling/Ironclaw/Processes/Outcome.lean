import Mathlib.Logic.Function.Basic
import Ironclaw.Lib.System

/-!
# The outcome of a background process

The detached task of `BackgroundProcessManager::spawn` and any calls of `ProcessHost::kill` and
`await_result` for one process, over stores that do not fail.  Each step is one operation of a
store; a status is read and changed in one step, under the lock of the process store.
-/

namespace Ironclaw.Processes

open Lib Function

inductive ProcessStatus where
  | running | completed | failed | killed
  deriving DecidableEq

structure ProcessResultRecord where
  status : ProcessStatus
  outputRef : Option String
  errorKind : Option String

inductive Outcome (ν : Type) where
  | output (value : ν)
  | error (kind : String)
  | panicked

/-- What the detached task does next. -/
inductive TaskPhase (ν : Type) where
  | execute
  | readStatus (outcome : Outcome ν)
  | write (outcome : Outcome ν)
  | writeCompleted
  | updateStatus (target : ProcessStatus) (errorKind : Option String)
  | ended

/-- The process was found running, and its status is not changed yet. -/
def TaskPhase.committing {ν : Type} : TaskPhase ν → Bool
  | .write _ | .writeCompleted | .updateStatus _ _ => true
  | _ => false

/-- What a call of `kill` does next. -/
inductive KillPhase where
  | start
  | recordSideEffects
  | readStatus
  | returned (ok : Bool)

/-- What a call of `await_result` does next, and whether it saw a terminal status without a
result the last time. -/
inductive AwaitPhase where
  | readResult (seen : Bool)
  | readStatus (seen : Bool)
  | returned (result : ProcessResultRecord)
  | unavailable

structure Process (ν : Type) where
  status : ProcessStatus
  errorKind : Option String
  result : Option ProcessResultRecord
  output : Option ν
  task : TaskPhase ν
  kills : Nat → KillPhase
  awaits : Nat → AwaitPhase

inductive ProcessLabel (ν : Type) where
  | finish (outcome : Outcome ν)
  | task
  | kill (call : Nat)
  | await (call : Nat)

namespace Process

variable {ν : Type} (sanitize : String → String) (outputPath : String)

/-- A status changes only from `running`. -/
def updateStatus (process : Process ν) (target : ProcessStatus) (errorKind : Option String) :
    Process ν :=
  if process.status = .running then { process with status := target, errorKind } else process

def fail (process : Process ν) (errorKind : String) : Process ν :=
  { process with
    result := some ⟨.failed, none, some (sanitize errorKind)⟩
    task := .updateStatus .failed (some (sanitize errorKind)) }

def stepTask (process : Process ν) : Process ν :=
  match process.task with
  | .readStatus outcome =>
    { process with task := if process.status = .running then .write outcome else .ended }
  | .write (.output value) => { process with output := some value, task := .writeCompleted }
  | .write (.error kind) => process.fail sanitize (sanitize kind)
  | .write .panicked => process.fail sanitize "runtime_panic"
  | .writeCompleted =>
    { process with
      result := some ⟨.completed, some outputPath, none⟩
      task := .updateStatus .completed none }
  | .updateStatus target errorKind => { process.updateStatus target errorKind with task := .ended }
  | .execute | .ended => process

def stepKill (process : Process ν) (call : Nat) : Process ν :=
  let move phase := update process.kills call phase
  match process.kills call with
  | .start =>
    if process.status = .running then
      { process.updateStatus .killed none with kills := move .recordSideEffects }
    else { process with kills := move .readStatus }
  | .recordSideEffects =>
    { process with result := some ⟨.killed, none, none⟩, kills := move (.returned true) }
  | .readStatus =>
    if process.status = .killed then { process with kills := move .recordSideEffects }
    else { process with kills := move (.returned false) }
  | .returned _ => process

def stepAwait (process : Process ν) (call : Nat) : Process ν :=
  let move phase := { process with awaits := update process.awaits call phase }
  match process.awaits call with
  | .readResult seen => move (process.result.elim (.readStatus seen) .returned)
  | .readStatus seen =>
    if process.status = .running then move (.readResult false)
    else if seen then move .unavailable else move (.readResult true)
  | _ => process

def apply (process : Process ν) : ProcessLabel ν → Process ν
  | .finish outcome =>
    match process.task with
    | .execute => { process with task := .readStatus outcome }
    | _ => process
  | .task => process.stepTask sanitize outputPath
  | .kill call => process.stepKill call
  | .await call => process.stepAwait call

def spawned : Process ν where
  status := .running
  errorKind := none
  result := none
  output := none
  task := .execute
  kills _ := .start
  awaits _ := .readResult false

def runs : System (Process ν) (ProcessLabel ν) :=
  .ofFunction (· = spawned) (apply sanitize outputPath)

/-- No call of `kill` changes the status while the task writes the result. -/
def KillsApart (process : Process ν) : ProcessLabel ν → Prop
  | .kill call => process.kills call = .start → process.task.committing = false
  | _ => True

structure Ended (process : Process ν) : Prop where
  task : process.task = .ended
  kills : ∀ call, process.kills call = .start ∨ ∃ ok, process.kills call = .returned ok

structure OneOutcome (process : Process ν) : Prop where
  terminal : process.status ≠ .running
  recorded : process.result.map ProcessResultRecord.status = some process.status
  awaited : ∀ call result, process.awaits call = .returned result → result.status = process.status

/-- The result was recorded or returned by a call. -/
def Told (process : Process ν) (result : ProcessResultRecord) : Prop :=
  process.result = some result ∨ ∃ call, process.awaits call = .returned result

/-- Between the status and what is told of it there is at most the status change the task is
about to make. -/
structure Agreed (process : Process ν) : Prop where
  committing : process.task.committing = true → process.status = .running
  recording : ∀ call, process.kills call = .recordSideEffects → process.status = .killed
  told : ∀ result, process.Told result → result.status ≠ .running ∧
    (process.status = result.status ∨
      ∃ errorKind, process.task = .updateStatus result.status errorKind)
  updating : ∀ target errorKind, process.task = .updateStatus target errorKind →
    target ≠ .running ∧ process.result.isSome = true
  stored : process.status ≠ .running →
    process.result.isSome = true ∨ ∃ call, process.kills call = .recordSideEffects
  ended : process.task = .ended → process.status ≠ .running

variable {process : Process ν} {sanitize outputPath}

namespace Agreed

variable (agreed : process.Agreed)

include agreed

theorem stepAwait (call : Nat) : (process.stepAwait call).Agreed := by
  have move : ∀ phase, (∀ result, phase = .returned result → process.result = some result) →
      Agreed { process with awaits := update process.awaits call phase } := by
    intro phase honest
    refine ⟨agreed.committing, agreed.recording, fun result told => agreed.told result ?_,
      agreed.updating, agreed.stored, agreed.ended⟩
    rcases told with recorded | ⟨other, returned⟩
    · exact .inl recorded
    by_cases same : other = call
    · subst same
      exact .inl (honest result (by simpa using returned))
    · exact .inr ⟨other, by simpa [same] using returned⟩
  dsimp only [Process.stepAwait]
  split
  · refine move _ fun result returned => ?_
    cases recorded : process.result <;> simp_all
  · split
    · exact move _ nofun
    · split <;> exact move _ nofun
  · exact agreed

/-- Nothing is told while the process runs, unless the task is about to change the status. -/
theorem untold (running : process.status = .running)
    (settled : ∀ target errorKind, process.task ≠ .updateStatus target errorKind)
    (result : ProcessResultRecord) : ¬ process.Told result := by
  intro told
  obtain ⟨terminal, same | ⟨errorKind, updating⟩⟩ := agreed.told result told
  · exact terminal (same.symm.trans running)
  · exact settled _ errorKind updating

theorem stepKill (call : Nat) (apart : process.KillsApart (.kill call)) :
    (process.stepKill call).Agreed := by
  have recording : ∀ phase, (phase = .recordSideEffects → process.status = .killed) → ∀ other,
      update process.kills call phase other = .recordSideEffects →
        process.status = .killed := by
    intro phase own other recorded
    by_cases same : other = call
    · subst same
      exact own (by simpa using recorded)
    · exact agreed.recording other (by simpa [same] using recorded)
  have move : ∀ phase, process.kills call ≠ .recordSideEffects →
      (phase = .recordSideEffects → process.status = .killed) →
        Agreed { process with kills := update process.kills call phase } := by
    intro phase different own
    refine ⟨agreed.committing, recording phase own, agreed.told, agreed.updating,
      fun terminal => (agreed.stored terminal).imp_right ?_, agreed.ended⟩
    rintro ⟨other, recorded⟩
    refine ⟨other, (update_of_ne ?_ ..).trans recorded⟩
    rintro rfl
    exact different recorded
  unfold Process.stepKill
  split
  next start =>
    split
    · rename_i running
      have idle := apart start
      have untold := agreed.untold running fun target errorKind updating => by
        simp [TaskPhase.committing, updating] at idle
      simp only [Process.updateStatus, running, if_true]
      exact ⟨fun busy => absurd (idle.symm.trans busy) nofun, fun _ _ => rfl,
        fun result told => absurd told (untold result), agreed.updating,
        fun _ => .inr ⟨call, update_self ..⟩, fun _ => nofun⟩
    · exact move _ (by simp [start]) nofun
  next recorded =>
    have killed := agreed.recording call recorded
    refine ⟨agreed.committing, recording _ nofun, fun result told => ?_,
      fun target errorKind updating => ⟨(agreed.updating target errorKind updating).1, rfl⟩,
      fun _ => .inl rfl, agreed.ended⟩
    rcases told with same | returned
    · cases same
      exact ⟨nofun, .inl killed⟩
    · exact agreed.told result (.inr returned)
  next reading =>
    split
    · rename_i killed
      exact move _ (by simp [reading]) fun _ => killed
    · exact move _ (by simp [reading]) nofun
  · exact agreed

theorem moveTask {task : TaskPhase ν} (output : Option ν)
    (before : ∀ target errorKind, process.task ≠ .updateStatus target errorKind)
    (after : ∀ target errorKind, task ≠ .updateStatus target errorKind)
    (committing : task.committing = true → process.status = .running)
    (ended : task = .ended → process.status ≠ .running) : Agreed { process with output, task } := by
  refine ⟨committing, agreed.recording, fun result told => ?_,
    fun target errorKind updating => absurd updating (after target errorKind), agreed.stored, ended⟩
  obtain ⟨terminal, same | ⟨errorKind, updating⟩⟩ := agreed.told result told
  · exact ⟨terminal, .inl same⟩
  · exact absurd updating (before _ errorKind)

theorem write (busy : process.task.committing = true)
    (before : ∀ target errorKind, process.task ≠ .updateStatus target errorKind)
    {result : ProcessResultRecord} (terminal : result.status ≠ .running)
    (errorKind : Option String) : Agreed { process with
      result := some result
      task := .updateStatus result.status errorKind } := by
  have running := agreed.committing busy
  refine ⟨fun _ => running, agreed.recording, fun other told => ?_, ?_, fun _ => .inl rfl, nofun⟩
  · rcases told with same | returned
    · cases same
      exact ⟨terminal, .inr ⟨errorKind, rfl⟩⟩
    · exact absurd (.inr returned) (agreed.untold running before other)
  · rintro target _ ⟨⟩
    exact ⟨terminal, rfl⟩

theorem stepTask : (process.stepTask sanitize outputPath).Agreed := by
  have committing := agreed.committing
  unfold Process.stepTask
  split
  next _ reading =>
    split
    · rename_i running
      exact agreed.moveTask _ (by simp [reading]) nofun (fun _ => running) nofun
    · rename_i terminal
      exact agreed.moveTask _ (by simp [reading]) nofun nofun fun _ => terminal
  next _ writing =>
    rw [writing] at committing
    exact agreed.moveTask _ (by simp [writing]) nofun (fun _ => committing rfl) nofun
  iterate 3
    next writing => exact agreed.write (by rw [writing]; rfl) (by simp [writing]) (by simp) _
  next target errorKind updating =>
    rw [updating] at committing
    have running := committing rfl
    obtain ⟨terminal, recorded⟩ := agreed.updating target errorKind updating
    simp only [Process.updateStatus, running, if_true]
    refine ⟨nofun, fun call recording => ?_, fun result told => ?_, nofun, fun _ => .inl recorded,
      fun _ => terminal⟩
    · cases running.symm.trans (agreed.recording call recording)
    · obtain ⟨terminal, same | ⟨_, again⟩⟩ := agreed.told result told
      · exact absurd (same.symm.trans running) terminal
      · cases updating.symm.trans again
        exact ⟨terminal, .inl rfl⟩
  · exact agreed
  · exact agreed

end Agreed

theorem Agreed.of_reachable (reached : (runs sanitize outputPath).Reachable KillsApart process) :
    process.Agreed := by
  refine reached.invariant _ ?_ ?_
  · rintro _ rfl
    refine ⟨nofun, nofun, ?_, nofun, fun terminal => absurd rfl terminal, nofun⟩
    rintro result (recorded | ⟨call, returned⟩)
    · cases recorded
    · cases returned
  · rintro _ label _ agreed apart rfl
    cases label with
    | finish =>
      rw [apply]
      split
      next executing => exact agreed.moveTask _ (by simp [executing]) nofun nofun nofun
      · exact agreed
    | task => exact agreed.stepTask
    | kill call => exact agreed.stepKill call apart
    | await call => exact agreed.stepAwait call

/-- Where no `kill` comes between the task's look at the status and its change of it, the
process has one outcome. -/
theorem one_outcome_of_kills_apart
    (reached : (runs sanitize outputPath).Reachable KillsApart process) (ended : process.Ended) :
    process.OneOutcome := by
  have agreed := Agreed.of_reachable reached
  have terminal := agreed.ended ended.task
  have told : ∀ result, process.Told result → result.status = process.status := by
    intro result told
    obtain ⟨_, same | ⟨_, updating⟩⟩ := agreed.told result told
    · exact same.symm
    · cases ended.task.symm.trans updating
  refine ⟨terminal, ?_, fun call result returned => told result (.inr ⟨call, returned⟩)⟩
  rcases agreed.stored terminal with recorded | ⟨call, recording⟩
  · obtain ⟨result, recorded⟩ := Option.isSome_iff_exists.mp recorded
    rw [recorded, Option.map_some, told result (.inl recorded)]
  · rcases ended.kills call with start | ⟨_, returned⟩
    · cases recording.symm.trans start
    · cases recording.symm.trans returned

/-- A completed process whose result one call waits for, and that one call kills too late. -/
def completedRun : List (ProcessLabel Unit) :=
  [.finish (.output ()), .task, .task, .task, .task, .kill 0, .kill 0, .await 0]

/-- A kill between the task's look at the status and its change of it. -/
def killedRun : List (ProcessLabel Unit) :=
  [.finish (.output ()), .task, .task, .kill 0, .kill 0, .task, .await 0, .task]

theorem late_kill_is_refused : let process := completedRun.foldl (apply id "output.json") spawned
    process.Ended ∧ process.OneOutcome ∧ process.kills 0 = .returned false := by
  intro process
  have started : (runs id "output.json").Reachable KillsApart (spawned : Process Unit) := .start rfl
  have reached := started.followAllowed completedRun
    ⟨trivial, trivial, trivial, trivial, trivial, fun _ => rfl, nofun, trivial, trivial⟩
  have ended : process.Ended := by
    refine ⟨rfl, fun call => ?_⟩
    cases call with
    | zero => exact .inr ⟨false, rfl⟩
    | succ => exact .inl rfl
  exact ⟨ended, one_outcome_of_kills_apart reached ended, rfl⟩

/-- The status stays killed, and the result that is recorded and returned is completed. -/
theorem completed_result_of_killed_process :
    let process := killedRun.foldl (apply id "output.json") spawned
    (runs id "output.json").Reachable System.anyStep process ∧ process.Ended ∧
      process.status = .killed ∧
      process.result.map ProcessResultRecord.status = some .completed ∧
      (∃ result, process.awaits 0 = .returned result ∧ result.status = .completed) ∧
      ¬ process.OneOutcome := by
  intro _
  have started : (runs id "output.json").Reachable System.anyStep (spawned : Process Unit) :=
    .start rfl
  refine ⟨started.follow killedRun, ⟨rfl, fun call => ?_⟩, rfl, rfl, ⟨_, rfl, rfl⟩, ?_⟩
  · cases call with
    | zero => exact .inr ⟨true, rfl⟩
    | succ => exact .inl rfl
  · intro outcome
    cases outcome.recorded

end Process

end Ironclaw.Processes
