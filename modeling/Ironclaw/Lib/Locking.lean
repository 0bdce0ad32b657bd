import Ironclaw.Lib.System
import Mathlib.Data.List.Basic

/-!
# Commits under locks

A store is read and written cell by cell, and every cell has a lock.  A job takes its locks
one after the other, reads its cells, writes them one after the other, appends itself to a
log and gives its locks back.  Any number of jobs are under way at once.  The log is then a
linearisation: the jobs run one at a time in its order lead to the store, but for the cells
of the jobs that are just being written.
-/

namespace Ironclaw.Lib

open Function
open List

/-- How jobs use a store.  `ready` is what a job has looked up before it takes its locks. -/
structure Locking (σ κ μ β : Type) (ν : κ → Type) where
  read : σ → (key : κ) → ν key
  write : σ → (key : κ) → ν key → σ
  lockOf : κ → μ
  locks : β → List μ
  cells : β → List κ
  looks : β → List κ
  ready : β → σ → Prop
  change : β → σ → Option ((key : κ) → ν key)

namespace Locking

variable {σ κ μ β ι : Type} {ν : κ → Type} (locking : Locking σ κ μ β ν)

def writeAll (store : σ) (keys : List κ) (values : (key : κ) → ν key) : σ :=
  keys.foldl (fun store key => locking.write store key (values key)) store

/-- What the store and the jobs have to keep to. -/
structure Lawful : Prop where
  read_write_self : ∀ store key value, locking.read (locking.write store key value) key = value
  read_write_of_ne : ∀ store key value other, other ≠ key →
    locking.read (locking.write store key value) other = locking.read store other
  covered : ∀ job, ∀ key ∈ locking.cells job, locking.lockOf key ∈ locking.locks job
  change_congr : ∀ job first second,
    (∀ key ∈ locking.cells job, locking.read first key = locking.read second key) →
      locking.change job first = locking.change job second
  ready_congr : ∀ job first second,
    (∀ key ∈ locking.looks job, locking.read first key = locking.read second key) →
      locking.ready job first → locking.ready job second
  ready_kept : ∀ job other store values, locking.ready job store → locking.ready other store →
    locking.change other store = some values →
      locking.ready job (locking.writeAll store (locking.cells other) values)

/-! ## Jobs one at a time -/

/-- The jobs run one at a time, each of them ready and done. -/
inductive Runs (start : σ) : List β → σ → Prop where
  | nil : Runs start [] start
  | snoc {jobs : List β} {job : β} {store : σ} {values : (key : κ) → ν key} :
      Runs start jobs store → locking.ready job store → locking.change job store = some values →
      Runs start (jobs ++ [job]) (locking.writeAll store (locking.cells job) values)

/-! ## Jobs at once -/

inductive Phase (κ μ β : Type) (ν : κ → Type) where
  | acquiring (job : β) (held rest : List μ)
  | writing (job : β) (values : (key : κ) → ν key) (written : List κ)
  | leaving (held : List μ)

namespace Phase

def held : Phase κ μ β ν → List μ
  | .acquiring _ held _ => held
  | .writing job _ _ => locking.locks job
  | .leaving held => held

def job : Phase κ μ β ν → Option β
  | .acquiring job _ _ => some job
  | .writing job _ _ => some job
  | .leaving _ => none

/-- The cells that are just being written. -/
def dirty : Phase κ μ β ν → List κ
  | .writing job _ _ => locking.cells job
  | _ => []

end Phase

structure State (σ κ μ β ι : Type) (ν : κ → Type) where
  store : σ
  calls : ι → Phase κ μ β ν
  log : List β

inductive Label (κ μ β ι : Type) where
  | start (call : ι) (job : β)
  | acquire (call : ι)
  | work (call : ι)
  | write (call : ι) (key : κ)
  | commit (call : ι)
  | release (call : ι) (lock : μ)

def Free (state : State σ κ μ β ι ν) (lock : μ) : Prop :=
  ∀ call, lock ∉ (state.calls call).held locking

section

variable [DecidableEq ι]

def State.move (state : State σ κ μ β ι ν) (call : ι) (phase : Phase κ μ β ν) : State σ κ μ β ι ν :=
  { state with calls := update state.calls call phase }

namespace State

variable {state : State σ κ μ β ι ν} {call other : ι} {phase : Phase κ μ β ν}

@[simp] theorem move_self : (state.move call phase).calls call = phase := update_self _ _ _

theorem move_of_ne (different : other ≠ call) :
    (state.move call phase).calls other = state.calls other :=
  update_of_ne different _ _

theorem move_cases (P : Phase κ μ β ν → Prop) (holds : P ((state.move call phase).calls other)) :
    other = call ∧ P phase ∨ other ≠ call ∧ P (state.calls other) := by
  by_cases same : other = call
  · rw [same, move_self] at holds
    exact .inl ⟨same, holds⟩
  · rw [move_of_ne same] at holds
    exact .inr ⟨same, holds⟩

end State

variable [DecidableEq μ]

/-- One step of one call.  A call that finds its change refused gives its locks back. -/
inductive Step (before : State σ κ μ β ι ν) : Label κ μ β ι → State σ κ μ β ι ν → Prop where
  | start {call : ι} {job : β} (idle : before.calls call = .leaving [])
      (free : ∀ key ∈ locking.looks job, locking.Free before (locking.lockOf key))
      (ready : locking.ready job before.store) :
      Step before (.start call job) (before.move call (.acquiring job [] (locking.locks job)))
  | acquire {call : ι} {job : β} {held rest : List μ} {lock : μ}
      (waits : before.calls call = .acquiring job held (lock :: rest))
      (free : locking.Free before lock) :
      Step before (.acquire call) (before.move call (.acquiring job (held ++ [lock]) rest))
  | refuse {call : ι} {job : β} {held : List μ}
      (holds : before.calls call = .acquiring job held [])
      (refused : locking.change job before.store = none) :
      Step before (.work call) (before.move call (.leaving held))
  | work {call : ι} {job : β} {held : List μ} {values : (key : κ) → ν key}
      (holds : before.calls call = .acquiring job held [])
      (done : locking.change job before.store = some values) :
      Step before (.work call) (before.move call (.writing job values []))
  | write {call : ι} {job : β} {values : (key : κ) → ν key} {written : List κ} {key : κ}
      (writes : before.calls call = .writing job values written) (own : key ∈ locking.cells job) :
      Step before (.write call key)
        { before.move call (.writing job values (key :: written)) with
          store := locking.write before.store key (values key) }
  | commit {call : ι} {job : β} {values : (key : κ) → ν key} {written : List κ}
      (writes : before.calls call = .writing job values written)
      (all : ∀ key ∈ locking.cells job, key ∈ written) :
      Step before (.commit call)
        { before.move call (.leaving (locking.locks job)) with log := before.log ++ [job] }
  | release {call : ι} {held : List μ} {lock : μ} (holds : before.calls call = .leaving held) :
      Step before (.release call lock) (before.move call (.leaving (held.erase lock)))

variable {locking}

theorem Step.log_grows {before after : State σ κ μ β ι ν} {label : Label κ μ β ι}
    (step : locking.Step before label after) : ∃ more, after.log = before.log ++ more := by
  cases step with
  | @commit _ job => exact ⟨[job], rfl⟩
  | _ => exact ⟨[], (append_nil _).symm⟩

def State.AllJobs (state : State σ κ μ β ι ν) (property : β → Prop) : Prop :=
  (∀ call job, (state.calls call).job = some job → property job) ∧ ∀ job ∈ state.log, property job

theorem State.AllJobs.step {before after : State σ κ μ β ι ν} {property : β → Prop}
    (all : before.AllJobs property) {label : Label κ μ β ι} (step : locking.Step before label after)
    (starts : ∀ call job, label = .start call job → property job) : after.AllJobs property := by
  have moved : ∀ {call : ι} {phase : Phase κ μ β ν}, (∀ job, phase.job = some job → property job) →
      ∀ other job, ((before.move call phase).calls other).job = some job → property job := by
    intro call phase own other job found
    rcases State.move_cases (·.job = some job) found with ⟨_, here⟩ | ⟨_, before⟩
    · exact own job here
    · exact all.1 other job before
  cases step with
  | @start call job =>
    exact ⟨moved fun _ found => Option.some.inj found ▸ starts call job rfl, all.2⟩
  | @acquire call job _ _ _ waits =>
    exact ⟨moved fun _ found => all.1 call _ (by rw [waits]; exact found), all.2⟩
  | refuse | release => exact ⟨moved nofun, all.2⟩
  | @work call job _ _ holds =>
    exact ⟨moved fun _ found => all.1 call _ (by rw [holds]; exact found), all.2⟩
  | @write call job _ _ _ writes =>
    exact ⟨moved fun _ found => all.1 call _ (by rw [writes]; exact found), all.2⟩
  | @commit call job _ _ writes =>
    refine ⟨moved nofun, fun other member => ?_⟩
    rcases mem_append.mp member with earlier | last
    · exact all.2 other earlier
    · rw [mem_singleton.mp last]
      exact all.1 call job (by rw [writes]; rfl)

end

/-! ## The log is a linearisation -/

variable {locking}

theorem Phase.dirty_held {phase : Phase κ μ β ν} (lawful : locking.Lawful) {key : κ}
    (dirty : key ∈ phase.dirty locking) : locking.lockOf key ∈ phase.held locking := by
  cases phase with
  | writing job => exact lawful.covered job key dirty
  | acquiring _ held | leaving => cases dirty

variable [DecidableEq κ]

theorem Lawful.read_writeAll (lawful : locking.Lawful) (store : σ) (keys : List κ)
    (values : (key : κ) → ν key) (key : κ) : locking.read (locking.writeAll store keys values) key =
      if key ∈ keys then values key else locking.read store key := by
  unfold writeAll
  induction keys generalizing store with
  | nil => rfl
  | cons first _ ih =>
    rw [foldl_cons, ih]
    by_cases same : key = first
    · subst same
      simp [lawful.read_write_self]
    · simp [lawful.read_write_of_ne store first _ key same, same]

variable (locking)

/-- The jobs of the log lead to `reached`, and the store differs from it only where a call is
writing. -/
structure Linear (start : σ) (state : State σ κ μ β ι ν) (reached : σ) : Prop where
  runs : locking.Runs start state.log reached
  exclusive : ∀ {first second : ι} {lock : μ}, lock ∈ (state.calls first).held locking →
    lock ∈ (state.calls second).held locking → first = second
  acquired : ∀ {call : ι} {job : β} {held rest : List μ},
    state.calls call = .acquiring job held rest → held ++ rest = locking.locks job
  ready : ∀ {call : ι} {job : β}, (state.calls call).job = some job → locking.ready job reached
  changes : ∀ {call : ι} {job : β} {values : (key : κ) → ν key} {written : List κ},
    state.calls call = .writing job values written → locking.change job reached = some values
  writes : ∀ {call : ι} {job : β} {values : (key : κ) → ν key} {written : List κ},
    state.calls call = .writing job values written → ∀ key ∈ locking.cells job,
      locking.read state.store key = if key ∈ written then values key else locking.read reached key
  settled : ∀ {key : κ}, (∀ call, key ∉ (state.calls call).dirty locking) →
    locking.read state.store key = locking.read reached key

variable {locking}

theorem Linear.start (store : σ) :
    locking.Linear store (⟨store, fun _ => .leaving [], []⟩ : State σ κ μ β ι ν) store where
  runs := .nil
  exclusive := nofun
  acquired := nofun
  ready := nofun
  changes := nofun
  writes := nofun
  settled _ := rfl

namespace Linear

variable {start reached : σ} {state : State σ κ μ β ι ν} {call : ι}

theorem writers_apart (linear : locking.Linear start state reached) (lawful : locking.Lawful)
    {job : β} {values : (key : κ) → ν key} {written : List κ} {other : ι} {otherJob : β}
    {otherValues : (key : κ) → ν key} {otherWritten : List κ}
    (one : state.calls call = .writing job values written)
    (two : state.calls other = .writing otherJob otherValues otherWritten)
    (different : other ≠ call) {key : κ} (member : key ∈ locking.cells otherJob) :
    key ∉ locking.cells job := by
  intro own
  have otherHolds : locking.lockOf key ∈ (state.calls other).held locking := by
    rw [two]
    exact lawful.covered otherJob key member
  have holds : locking.lockOf key ∈ (state.calls call).held locking := by
    rw [one]
    exact lawful.covered job key own
  exact different (linear.exclusive otherHolds holds)

end Linear

/-! ## Every step keeps to the log -/

section

variable [DecidableEq ι]

namespace Linear

variable {start reached : σ} {state : State σ κ μ β ι ν} {call other : ι}
  {phase : Phase κ μ β ν} {job : β}

theorem exclusive_move (linear : locking.Linear start state reached)
    (holds : ∀ lock ∈ phase.held locking,
      lock ∈ (state.calls call).held locking ∨ locking.Free state lock)
    {first second : ι} {lock : μ}
    (one : lock ∈ ((state.move call phase).calls first).held locking)
    (two : lock ∈ ((state.move call phase).calls second).held locking) : first = second := by
  have alone : ∀ {other : ι}, other ≠ call → lock ∈ phase.held locking →
      lock ∉ (state.calls other).held locking := by
    intro other different inside outside
    rcases holds lock inside with own | free
    · exact different (linear.exclusive outside own)
    · exact free other outside
  rcases State.move_cases (lock ∈ ·.held locking) one with ⟨same, one⟩ | ⟨different, one⟩
  · rcases State.move_cases (lock ∈ ·.held locking) two with ⟨also, _⟩ | ⟨different, two⟩
    · exact same.trans also.symm
    · exact absurd two (alone different one)
  · rcases State.move_cases (lock ∈ ·.held locking) two with ⟨_, two⟩ | ⟨_, two⟩
    · exact absurd one (alone different two)
    · exact linear.exclusive one two

theorem move (linear : locking.Linear start state reached)
    (clean : (state.calls call).dirty locking = []) (holds : ∀ lock ∈ phase.held locking,
      lock ∈ (state.calls call).held locking ∨ locking.Free state lock)
    (acquired : ∀ job held rest, phase = .acquiring job held rest →
      held ++ rest = locking.locks job)
    (ready : ∀ job, phase.job = some job → locking.ready job reached)
    (changes : ∀ job values written, phase = .writing job values written →
      locking.change job reached = some values ∧ written = [] ∧
        ∀ key ∈ locking.cells job, locking.read state.store key = locking.read reached key) :
    locking.Linear start (state.move call phase) reached where
  runs := linear.runs
  exclusive := linear.exclusive_move holds
  acquired {_ job held rest} now := by
    rcases State.move_cases (· = _) now with ⟨_, own⟩ | ⟨_, before⟩
    · exact acquired job held rest own
    · exact linear.acquired before
  ready {_ job} now := by
    rcases State.move_cases (·.job = some job) now with ⟨_, own⟩ | ⟨_, before⟩
    · exact ready job own
    · exact linear.ready before
  changes {_ job values written} now := by
    rcases State.move_cases (· = _) now with ⟨_, own⟩ | ⟨_, before⟩
    · exact (changes job values written own).1
    · exact linear.changes before
  writes {_ job values written} now key member := by
    rcases State.move_cases (· = _) now with ⟨_, own⟩ | ⟨_, before⟩
    · obtain ⟨_, rfl, unwritten⟩ := changes job values written own
      exact (unwritten key member).trans (if_neg not_mem_nil).symm
    · exact linear.writes before key member
  settled {key} untouched := by
    refine linear.settled fun other dirty => ?_
    by_cases same : other = call
    · rw [same, clean] at dirty
      cases dirty
    · exact untouched other (by rwa [State.move_of_ne same])

variable {values : (key : κ) → ν key} {written : List κ}

variable (linear : locking.Linear start state reached)
include linear

theorem start_step (lawful : locking.Lawful) (idle : state.calls call = .leaving [])
    (free : ∀ key ∈ locking.looks job, locking.Free state (locking.lockOf key))
    (ready : locking.ready job state.store) :
    locking.Linear start (state.move call (.acquiring job [] (locking.locks job))) reached := by
  refine linear.move ?_ ?_ ?_ ?_ ?_
  · rw [idle]
    rfl
  · intro _ none
    cases none
  · rintro _ _ _ ⟨⟩
    rfl
  · rintro _ ⟨⟩
    exact lawful.ready_congr job _ _
      (fun key looked => linear.settled fun call dirty =>
        free key looked call (Phase.dirty_held lawful dirty)) ready
  · rintro _ _ _ ⟨⟩

theorem acquire_step {held rest : List μ} {lock : μ}
    (waits : state.calls call = .acquiring job held (lock :: rest))
    (free : locking.Free state lock) :
    locking.Linear start (state.move call (.acquiring job (held ++ [lock]) rest)) reached := by
  refine linear.move ?_ ?_ ?_ ?_ ?_
  · rw [waits]
    rfl
  · intro other member
    rcases mem_append.mp member with _ | new
    · exact .inl (by rwa [waits])
    · exact .inr (mem_singleton.mp new ▸ free)
  · rintro _ _ _ ⟨⟩
    rw [append_assoc]
    exact linear.acquired waits
  · rintro _ ⟨⟩
    exact linear.ready (by rw [waits]; rfl)
  · rintro _ _ _ ⟨⟩

theorem leave_step (clean : (state.calls call).dirty locking = []) {held : List μ}
    (holds : ∀ lock ∈ held, lock ∈ (state.calls call).held locking) :
    locking.Linear start (state.move call (.leaving held)) reached := by
  refine linear.move clean (fun lock member => .inl (holds lock member)) ?_ ?_ ?_
  · rintro _ _ _ ⟨⟩
  · rintro _ ⟨⟩
  · rintro _ _ _ ⟨⟩

/-- With all its locks a call sees its cells as the log leaves them. -/
theorem work_step (lawful : locking.Lawful) {held : List μ}
    (holds : state.calls call = .acquiring job held [])
    (done : locking.change job state.store = some values) :
    locking.Linear start (state.move call (.writing job values [])) reached := by
  have clean : (state.calls call).dirty locking = [] := by
    rw [holds]
    rfl
  have held_eq : (state.calls call).held locking = locking.locks job := by
    rw [holds, ← linear.acquired holds, append_nil]
    rfl
  have reads : ∀ key ∈ locking.cells job,
      locking.read state.store key = locking.read reached key := by
    -- A cell whose lock is held by a call that does not write is settled.
    intro key member
    refine linear.settled fun other dirty => ?_
    have held : locking.lockOf key ∈ (state.calls call).held locking := by
      rw [held_eq]
      exact lawful.covered job key member
    rw [linear.exclusive (Phase.dirty_held lawful dirty) held, clean] at dirty
    cases dirty
  refine linear.move clean ?_ ?_ ?_ ?_
  · intro _ _
    exact .inl (by rwa [held_eq])
  · rintro _ _ _ ⟨⟩
  · rintro _ ⟨⟩
    exact linear.ready (by rw [holds]; rfl)
  · rintro _ _ _ ⟨⟩
    exact ⟨(lawful.change_congr job _ _ reads).symm.trans done, rfl, reads⟩

theorem write_step (lawful : locking.Lawful)
    (writes : state.calls call = .writing job values written) {key : κ}
    (own : key ∈ locking.cells job) : locking.Linear start
      { state.move call (.writing job values (key :: written)) with
        store := locking.write state.store key (values key) } reached where
  runs := linear.runs
  exclusive := linear.exclusive_move fun lock member => .inl (by rwa [writes])
  acquired now := by
    obtain ⟨_, ⟨⟩⟩ | ⟨_, before⟩ := State.move_cases (· = _) now
    exact linear.acquired before
  ready {_ job} now := by
    rcases State.move_cases (·.job = some job) now with ⟨_, own⟩ | ⟨_, before⟩
    · exact linear.ready (by rw [writes]; exact own)
    · exact linear.ready before
  changes now := by
    obtain ⟨_, ⟨⟩⟩ | ⟨_, before⟩ := State.move_cases (· = _) now
    · exact linear.changes writes
    · exact linear.changes before
  writes now cell member := by
    obtain ⟨_, ⟨⟩⟩ | ⟨same, before⟩ := State.move_cases (· = _) now
    · by_cases here : cell = key
      · subst here
        simp [lawful.read_write_self]
      · simp only [lawful.read_write_of_ne _ _ _ _ here, mem_cons, here, false_or]
        exact linear.writes writes cell member
    · have apart := linear.writers_apart lawful writes before same member
      have elsewhere : cell ≠ key := fun here => apart (here ▸ own)
      simp only [lawful.read_write_of_ne _ _ _ _ elsewhere]
      exact linear.writes before cell member
  settled {cell} untouched := by
    have elsewhere : cell ≠ key := by
      rintro rfl
      exact untouched call (by simpa [Phase.dirty] using own)
    simp only [lawful.read_write_of_ne _ _ _ _ elsewhere]
    refine linear.settled fun other dirty => ?_
    by_cases same : other = call
    · rw [same, writes] at dirty
      refine untouched call ?_
      simp only [State.move_self]
      exact dirty
    · exact untouched other (by simpa [State.move_of_ne same] using dirty)

theorem commit_step (lawful : locking.Lawful)
    (writes : state.calls call = .writing job values written)
    (all : ∀ key ∈ locking.cells job, key ∈ written) : locking.Linear start
      { state.move call (.leaving (locking.locks job)) with log := state.log ++ [job] }
      (locking.writeAll reached (locking.cells job) values) where
  runs := linear.runs.snoc (linear.ready (by rw [writes]; rfl)) (linear.changes writes)
  exclusive := linear.exclusive_move fun lock member => .inl (by rwa [writes])
  acquired now := by
    obtain ⟨_, ⟨⟩⟩ | ⟨_, before⟩ := State.move_cases (· = _) now
    exact linear.acquired before
  ready {_ job} now := by
    obtain ⟨_, ⟨⟩⟩ | ⟨_, before⟩ := State.move_cases (·.job = some job) now
    exact lawful.ready_kept _ _ _ _ (linear.ready before) (linear.ready (by rw [writes]; rfl))
      (linear.changes writes)
  changes {_ otherJob _ _} now := by
    obtain ⟨_, ⟨⟩⟩ | ⟨same, before⟩ := State.move_cases (· = _) now
    rw [← linear.changes before]
    refine lawful.change_congr otherJob _ _ fun key member => ?_
    rw [lawful.read_writeAll, if_neg (linear.writers_apart lawful writes before same member)]
  writes now key member := by
    obtain ⟨_, ⟨⟩⟩ | ⟨same, before⟩ := State.move_cases (· = _) now
    rw [lawful.read_writeAll, if_neg (linear.writers_apart lawful writes before same member)]
    exact linear.writes before key member
  settled {key} untouched := by
    rw [lawful.read_writeAll]
    split
    next member => exact (linear.writes writes key member).trans (if_pos (all key member))
    next outside =>
      refine linear.settled fun other dirty => ?_
      by_cases same : other = call
      · rw [same, writes] at dirty
        exact outside dirty
      · exact untouched other (by simpa [State.move_of_ne same] using dirty)

end Linear

variable [DecidableEq μ]

theorem Linear.step {start reached : σ} {state : State σ κ μ β ι ν}
    (linear : locking.Linear start state reached) (lawful : locking.Lawful)
    {label : Label κ μ β ι} {after : State σ κ μ β ι ν} (step : locking.Step state label after) :
    ∃ next, locking.Linear start after next := by
  cases step with
  | start idle free ready => exact ⟨reached, linear.start_step lawful idle free ready⟩
  | acquire waits free => exact ⟨reached, linear.acquire_step waits free⟩
  | refuse holds =>
    refine ⟨reached, linear.leave_step ?_ fun lock member => ?_⟩
    · rw [holds]
      rfl
    · rwa [holds]
  | work holds done => exact ⟨reached, linear.work_step lawful holds done⟩
  | write writes own => exact ⟨reached, linear.write_step lawful writes own⟩
  | commit writes all => exact ⟨_, linear.commit_step lawful writes all⟩
  | release holds =>
    refine ⟨reached, linear.leave_step ?_ fun lock member => ?_⟩
    · rw [holds]
      rfl
    · rw [holds]
      exact mem_of_mem_erase member

end

end Locking

end Ironclaw.Lib
