import Ironclaw.Lib.System
import Ironclaw.Resources.State
import Ironclaw.Turns.Status

/-!
# Holds of the budget accountant

The accountant makes at most one reservation for the model work of a run and keeps its id in a
map.  Calls look at the map, ask the governor and change the map in separate steps, so calls of
one run may race.  A call that loses the race gives its reservation back and does not look at
what the governor says to that.
-/

namespace Ironclaw.LoopHost

open HostApi Lib Resources Turns Function Table Option

/-- A reservation at the governor: the run it is for, the caller that made it, and every time
it was closed, with how and by whom. -/
structure Hold (ι : Type) where
  run : TurnRunId
  maker : ι
  closes : List (ReservationStatus × ι)
  deriving DecidableEq

inductive BudgetStage where
  | idle
  | reserving (run : TurnRunId)
  | recording (run : TurnRunId) (id : ResourceReservationId)
  | closing (run : TurnRunId) (id : ResourceReservationId) (status : ReservationStatus)
  | removing (run : TurnRunId)
  deriving DecidableEq

/-- The accountant with the reservations of its governor. -/
structure Accountant (ι : Type) where
  reservations : Table ResourceReservationId (Hold ι)
  inFlight : Table TurnRunId ResourceReservationId
  calls : ι → BudgetStage

inductive BudgetCall where
  | preModelWork (run : TurnRunId)
  | postModelWork (run : TurnRunId) (success : Bool)
  | postModelCall (run : TurnRunId) (success : Bool)
  | releaseInFlight (run : TurnRunId)

/-- One step of a caller; the governor says whether it serves the step. -/
inductive BudgetLabel (ι : Type) where
  | call (caller : ι) (call : BudgetCall)
  | reserve (caller : ι) (id : ResourceReservationId) (serves : Bool)
  | record (caller : ι) (serves : Bool)
  | close (caller : ι) (serves : Bool)
  | remove (caller : ι)

variable {ι : Type} [DecidableEq ι]

namespace Accountant

variable (state : Accountant ι) (run : TurnRunId)

/-- The first look of `reserve_estimate`. -/
def preModelWork : BudgetStage :=
  if state.inFlight.containsKey run then .idle else .reserving run

/-- The entry of the run is read and not removed yet. -/
def peek (status : ReservationStatus) : BudgetStage :=
  match state.inFlight.get run with
  | none => .idle
  | some id => .closing run id status

def postModelWork (success : Bool) : BudgetStage :=
  state.peek run (if success then .reconciled else .released)

def postModelCall (success : Bool) : BudgetStage :=
  state.peek run (if success then .reconciled else .released)

def releaseInFlight : BudgetStage := state.peek run .released

def begin : BudgetCall → BudgetStage
  | .preModelWork run => state.preModelWork run
  | .postModelWork run success => state.postModelWork run success
  | .postModelCall run success => state.postModelCall run success
  | .releaseInFlight run => state.releaseInFlight run

def put (caller : ι) (stage : BudgetStage) : Accountant ι :=
  { state with calls := update state.calls caller stage }

/-- The governor closes an active reservation and refuses every other. -/
def governorClose (caller : ι) (id : ResourceReservationId) (status : ReservationStatus)
    (serves : Bool) : Option (Accountant ι) :=
  match serves, state.reservations.get id with
  | true, some ⟨run, maker, []⟩ =>
    some { state with
      reservations := state.reservations.insert id ⟨run, maker, [(status, caller)]⟩ }
  | _, _ => none

def apply : BudgetLabel ι → Accountant ι
  | .call caller call =>
    match state.calls caller with
    | .idle => state.put caller (state.begin call)
    | _ => state
  | .reserve caller id serves =>
    match state.calls caller with
    | .reserving run =>
      if serves && !state.reservations.containsKey id then
        { state.put caller (.recording run id) with
          reservations := state.reservations.insert id ⟨run, caller, []⟩ }
      else state.put caller .idle
    | _ => state
  | .record caller serves =>
    match state.calls caller with
    | .recording run id =>
      -- The entry is held locked over the release, whose answer is dropped.
      if state.inFlight.containsKey run then
        ((state.governorClose caller id .released serves).getD state).put caller .idle
      else { state.put caller .idle with inFlight := state.inFlight.insert run id }
    | _ => state
  | .close caller serves =>
    match state.calls caller with
    | .closing run id status =>
      match state.governorClose caller id status serves with
      | some closed => closed.put caller (.removing run)
      | none => state.put caller .idle
    | _ => state
  | .remove caller =>
    match state.calls caller with
    | .removing run => { state.put caller .idle with inFlight := state.inFlight.remove run }
    | _ => state

end Accountant

/-- Any number of callers around an accountant without reservations. -/
def accountantRuns (ι : Type) [DecidableEq ι] : System (Accountant ι) (BudgetLabel ι) :=
  .ofFunction (fun state => state = ⟨.empty, .empty, fun _ => .idle⟩) Accountant.apply

/-- The governor serves the release of a reservation whose run has another one. -/
def BacksOut (state : Accountant ι) : BudgetLabel ι → Prop
  | .record caller serves => ∀ run id, state.calls caller = .recording run id →
      state.inFlight.containsKey run = true → serves = true
  | _ => True

/-- Nothing is closed twice, and once no call is in progress the active reservations are those
of the map, one for a run at most. -/
def Accountant.LosesNoHold (state : Accountant ι) : Prop :=
  (∀ id hold, state.reservations.get id = some hold → hold.closes.length ≤ 1) ∧
    ((∀ caller, state.calls caller = .idle) → ∀ run id maker,
      state.reservations.get id = some ⟨run, maker, []⟩ → state.inFlight.get run = some id ∧
        ∀ other another, state.reservations.get other = some ⟨run, another, []⟩ → other = id)

/-! ## Where a reservation is -/

/-- The reservation is one of the run that its maker is done with. -/
def Accountant.Filed (state : Accountant ι) (run : TurnRunId) (id : ResourceReservationId) : Prop :=
  ∃ maker closes, state.reservations.get id = some ⟨run, maker, closes⟩ ∧
    state.calls maker ≠ .recording run id

/-- An active reservation is in the map or about to be written there by its maker, and an entry
is removed by the caller that closed it. -/
structure Accountant.Sound (state : Accountant ι) : Prop where
  active : ∀ run id maker, state.reservations.get id = some ⟨run, maker, []⟩ →
    state.inFlight.get run = some id ∨ state.calls maker = .recording run id
  recording : ∀ caller run id, state.calls caller = .recording run id →
    state.reservations.get id = some ⟨run, caller, []⟩
  entries : ∀ run id, state.inFlight.get run = some id → state.Filed run id
  closing : ∀ caller run id status, state.calls caller = .closing run id status →
    state.Filed run id
  removing : ∀ caller run, state.calls caller = .removing run → ∃ id maker status,
    state.inFlight.get run = some id ∧
      state.reservations.get id = some ⟨run, maker, [(status, caller)]⟩
  once : ∀ id hold, state.reservations.get id = some hold → hold.closes.length ≤ 1

variable {state : Accountant ι}

namespace Accountant.Sound

variable (sound : state.Sound) {caller : ι} {run : TurnRunId} {id : ResourceReservationId}
include sound

/-- A call that begins or ends with nothing in its hands. -/
theorem put {stage : BudgetStage} (empty : ∀ run id, state.calls caller ≠ .recording run id)
    (next : stage = .idle ∨ (∃ run, stage = .reserving run) ∨
      ∃ run id status, stage = .closing run id status ∧ state.inFlight.get run = some id) :
    (state.put caller stage).Sound := by
  cases sound
  constructor <;> simp only [Accountant.put, Filed, update_apply] <;> grind [Filed]

/-- The governor makes a reservation under an id it has not seen, so nobody else knows it. -/
theorem reserve (reserving : state.calls caller = .reserving run)
    (fresh : state.reservations.get id = none) : Sound { state.put caller (.recording run id) with
      reservations := state.reservations.insert id ⟨run, caller, []⟩ } := by
  cases sound
  constructor <;> simp only [Accountant.put, Filed, update_apply, get_insert] <;>
    grind [Filed]

/-- The maker was the only one to record the id. -/
theorem insert (recorded : state.calls caller = .recording run id)
    (vacant : state.inFlight.get run = none) :
    Sound { state.put caller .idle with inFlight := state.inFlight.insert run id } := by
  cases sound
  constructor <;> simp only [Accountant.put, Filed, update_apply, get_insert] <;>
    grind [Filed]

/-- Only the maker knows a reservation that is not recorded, so the release is served. -/
theorem backOut (recorded : state.calls caller = .recording run id) :
    (((state.governorClose caller id .released true).getD state).put caller .idle).Sound := by
  have held := sound.recording caller run id recorded
  cases sound
  simp only [governorClose, held, getD_some]
  constructor <;> simp only [Accountant.put, Filed, update_apply, get_insert] <;>
    grind [Filed]

/-- The reservation is still the entry of its run, and this caller has closed it. -/
theorem close {status : ReservationStatus} {serves : Bool} {closed : Accountant ι}
    (asked : state.calls caller = .closing run id status)
    (done : state.governorClose caller id status serves = some closed) :
    (closed.put caller (.removing run)).Sound := by
  unfold governorClose at done
  split at done
  next held =>
    cases done
    obtain ⟨_, _, same, settled⟩ := sound.closing caller run id status asked
    cases held.symm.trans same
    have entry := (sound.active run id _ held).resolve_right settled
    constructor
    case removing =>
      intro other place found
      simp only [Accountant.put, update_apply] at found
      split at found
      next same =>
        subst same
        cases found
        exact ⟨id, _, status, entry, get_insert_self _ _ _⟩
      · obtain ⟨old, maker, how, there, stored⟩ := sound.removing other place found
        refine ⟨old, maker, how, there, (get_insert_of_ne _ _ ?_).trans stored⟩
        rintro rfl
        cases held.symm.trans stored
    all_goals
      cases sound
      simp only [Accountant.put, Filed, update_apply, get_insert]
      grind [Filed]
  · cases done

/-- The entry that is removed is the one this caller has closed. -/
theorem remove (removed : state.calls caller = .removing run) :
    Sound { state.put caller .idle with inFlight := state.inFlight.remove run } := by
  cases sound
  constructor <;> simp only [Accountant.put, Filed, update_apply, get_remove] <;>
    grind [Filed]

theorem begin (idle : state.calls caller = .idle) (call : BudgetCall) :
    (state.put caller (state.begin call)).Sound := by
  have empty : ∀ run id, state.calls caller ≠ .recording run id := by
    rw [idle]
    exact nofun
  have peeked : ∀ run status, (state.put caller (state.peek run status)).Sound := by
    intro run status
    unfold peek
    split
    · exact sound.put empty (.inl rfl)
    next id found => exact sound.put empty (.inr (.inr ⟨run, id, status, rfl, found⟩))
  cases call with
  | preModelWork run =>
    rw [Accountant.begin, preModelWork]
    split
    · exact sound.put empty (.inl rfl)
    · exact sound.put empty (.inr (.inl ⟨run, rfl⟩))
  | postModelWork | postModelCall | releaseInFlight => exact peeked _ _

theorem apply (label : BudgetLabel ι) (backs : BacksOut state label) :
    (state.apply label).Sound := by
  cases label with
  | call caller call =>
    dsimp only [Accountant.apply]
    cases phase : state.calls caller with
    | idle => exact sound.begin phase call
    | _ => exact sound
  | reserve caller id serves =>
    dsimp only [Accountant.apply]
    cases phase : state.calls caller with
    | reserving run =>
      dsimp only
      split_ifs with served
      · simp only [Bool.and_eq_true, Bool.not_eq_true', containsKey,
          isSome_eq_false_iff, isNone_iff_eq_none] at served
        exact sound.reserve phase served.2
      · exact sound.put (by simp [phase]) (.inl rfl)
    | _ => exact sound
  | record caller serves =>
    dsimp only [Accountant.apply]
    cases phase : state.calls caller with
    | recording run id =>
      dsimp only
      split_ifs with taken
      · rw [backs run id phase taken]
        exact sound.backOut phase
      · exact sound.insert phase (not_isSome_iff_eq_none.mp taken)
    | _ => exact sound
  | close caller serves =>
    dsimp only [Accountant.apply]
    cases phase : state.calls caller with
    | closing run id status =>
      dsimp only
      cases done : state.governorClose caller id status serves with
      | some => exact sound.close phase done
      | none => exact sound.put (by simp [phase]) (.inl rfl)
    | _ => exact sound
  | remove caller =>
    dsimp only [Accountant.apply]
    cases phase : state.calls caller with
    | removing => exact sound.remove phase
    | _ => exact sound

end Accountant.Sound

/-- While the governor serves every back-out, no hold is lost. -/
theorem accountantRuns.no_hold_lost
    (reached : (accountantRuns ι).Reachable BacksOut state) : state.LosesNoHold := by
  have sound : state.Sound := by
    refine reached.invariant Accountant.Sound ?_ ?_
    · rintro _ rfl
      exact ⟨nofun, nofun, nofun, nofun,
        nofun, nofun⟩
    · rintro before label _ sound backs rfl
      exact sound.apply label backs
  refine ⟨sound.once, fun idle run id maker held => ?_⟩
  have entry : ∀ id maker, state.reservations.get id = some ⟨run, maker, []⟩ →
      state.inFlight.get run = some id := by
    intro id maker held
    refine (sound.active run id maker held).resolve_right ?_
    rw [idle]
    exact nofun
  have own := entry id maker held
  refine ⟨own, fun other another found => ?_⟩
  exact some.inj ((entry other another found).symm.trans own)

/-! ## Two calls that race for one run -/

/-- Both callers find no entry; the second loses the race and the governor serves its release or
does not. -/
def racingCalls (serves : Bool) : List (BudgetLabel Bool) :=
  [.call true (.preModelWork ⟨1⟩), .call false (.preModelWork ⟨1⟩), .reserve true ⟨7⟩ true,
    .reserve false ⟨8⟩ true, .record true true, .record false serves]

def afterRace (serves : Bool) : Accountant Bool :=
  (racingCalls serves).foldl Accountant.apply ⟨.empty, .empty, fun _ => .idle⟩

theorem accountantRuns.backed_out :
    (afterRace true).reservations.get ⟨8⟩ = some ⟨⟨1⟩, false, [(.released, false)]⟩ ∧
      (afterRace true).LosesNoHold := by
  have start : (accountantRuns Bool).Reachable BacksOut ⟨.empty, .empty, fun _ => .idle⟩ :=
    .start rfl
  exact ⟨by decide, no_hold_lost (start.followAllowed (racingCalls true)
    ⟨trivial, trivial, trivial, trivial, fun _ _ _ _ => rfl, fun _ _ _ _ => rfl, trivial⟩)⟩

/-- The reservation of the second call stays active, and nothing knows its id. -/
theorem accountantRuns.hold_lost :
    (accountantRuns Bool).Reachable System.anyStep (afterRace false) ∧
      ¬(afterRace false).LosesNoHold := by
  refine ⟨(System.Reachable.start rfl).follow _, fun ⟨_, kept⟩ => ?_⟩
  have idle : ∀ caller, (afterRace false).calls caller = .idle := by decide
  exact absurd (kept idle ⟨1⟩ ⟨8⟩ false (by decide)).1 (by decide)

end Ironclaw.LoopHost
