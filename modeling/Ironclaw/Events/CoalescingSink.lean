import Ironclaw.Events.Streams
import Ironclaw.Lib.System

/-!
# The coalescing event sink

`emit` puts an event into a bounded queue and returns; one drain task takes the queue apart
into windows, appends each window as a batch, and answers the flush that closed it.  A window
also closes when it is full and when its time is up.  Nothing that a batch loses is tried
again, and only the flush of the same window hears of it.

Every event the queue takes is given its place in the order of the queue, which says what a
flush waits for and in which order events became durable.
-/

namespace Ironclaw.Events

open Lib Function List

def channelCapacity : Nat := 8192

/-- An event with its place in the order of the queue. -/
structure Queued where
  place : Nat
  event : RuntimeEvent

def Queued.stream (item : Queued) : EventStreamKey := .fromScope item.event.scope

inductive DrainMessage (ι : Type) where
  | event (item : Queued)
  | flush (ack : ι)

inductive Drain (ι : Type) where
  | receiving
  | collecting (batch : List Queued)
  | appending (batch : List Queued) (acks : List ι) (closed : Bool)
  | stopped

/-- A flush call, with the number of events the queue had taken when it was made. -/
inductive FlushCall where
  | idle
  /-- Waits for room in the queue. -/
  | sending (before : Nat)
  /-- Has its room and is about to put its message there. -/
  | permitted (before : Nat)
  | waiting (before : Nat)
  | returned (before : Nat) (result : Except EventError Unit)

def FlushCall.before : FlushCall → Nat
  | .idle => 0
  | .sending before | .permitted before | .waiting before | .returned before _ => before

/-- What a backend does with one row of a batch.  A row it reports as failed may be stored
all the same. -/
inductive RowOutcome where
  | appended
  | rejected (reason : String) (stored : Bool)

def RowOutcome.isStored : RowOutcome → Bool
  | .appended => true
  | .rejected _ stored => stored

/-- What comes of one `append_batch`, row by row; a panic has no results. -/
inductive BatchOutcome where
  | answered (rows : Nat → RowOutcome)
  | panicked (stored : Nat → Bool) (reason : String)

namespace BatchOutcome

def isStored : BatchOutcome → Nat → Bool
  | .answered rows, row => (rows row).isStored
  | .panicked stored _, row => stored row

def firstError (rows : Nat → RowOutcome) (count : Nat) : Option String :=
  (List.range count).findSome? fun row =>
    match rows row with
    | .appended => none
    | .rejected reason _ => some reason

/-- The result of `flush_batch` for a batch that is not empty. -/
def result (count : Nat) : BatchOutcome → Except EventError Unit
  | .answered rows =>
    match firstError rows count with
    | none => .ok ()
    | some reason => .error (.sink reason)
  | .panicked _ reason => .error (.sink reason)

theorem isStored_of_result {count row : Nat} {outcome : BatchOutcome}
    (ok : outcome.result count = .ok ()) (listed : row < count) : outcome.isStored row = true := by
  cases outcome with
  | panicked => cases ok
  | answered rows =>
    dsimp only [result] at ok
    split at ok
    next found =>
      have silent := findSome?_eq_none_iff.mp found row (mem_range.mpr listed)
      dsimp only [isStored]
      cases outcome : rows row with
      | appended => rfl
      | rejected => simp [outcome] at silent
    · cases ok

end BatchOutcome

structure SinkState (ι : Type) where
  queue : List (DrainMessage ι)
  /-- Room that waiting flushes have been given and not used yet. -/
  reserved : Nat
  drain : Drain ι
  durable : EventStreamKey → List Queued
  flushes : ι → FlushCall
  dropped : Nat
  /-- Some clone of the sink is left. -/
  senders : Bool
  /-- Every event the queue has taken. -/
  accepted : List RuntimeEvent
  /-- How many of them have been through an append. -/
  settled : Nat

inductive SinkLabel (ι : Type) where
  | emit (event : RuntimeEvent)
  | flush (ack : ι)
  /-- A waiting flush is given room in the queue. -/
  | reserve (ack : ι)
  | send (ack : ι)
  /-- The drain takes the next message. -/
  | receive
  /-- The window's time is up. -/
  | timeout
  /-- The drain finds the queue empty and every sender gone. -/
  | finish
  | append (outcome : BatchOutcome)
  | dropSenders
  /-- The drain task is torn down with the runtime. -/
  | abort
  /-- A flush finds that the drain is gone. -/
  | notice (ack : ι)

def sinkClosed : EventError := .sink "coalescing event sink drain task is no longer running"

section

variable {ι : Type} [DecidableEq ι]

/-- The drain with one more message of its window. -/
def Drain.take (maxBatch : Nat) : Drain ι → DrainMessage ι → Drain ι
  | .receiving, .event item =>
    if 1 < maxBatch then .collecting [item] else .appending [item] [] false
  | .receiving, .flush ack => .appending [] [ack] false
  | .collecting batch, .event item =>
    if batch.length + 1 < maxBatch then .collecting (batch ++ [item])
    else .appending (batch ++ [item]) [] false
  | .collecting batch, .flush ack => .appending batch [ack] false
  | drain, _ => drain

def Drain.receives : Drain ι → Bool
  | .receiving | .collecting _ => true
  | _ => false

/-- The rows of a batch that reach a stream, in the order of the batch. -/
def storedRows (outcome : BatchOutcome) (batch : List Queued) (stream : EventStreamKey) :
    List Queued :=
  (batch.zipIdx.filter fun row => outcome.isStored row.2 && decide (row.1.stream = stream)).map
    (·.1)

def answerAll (flushes : ι → FlushCall) (acks : List ι) (result : Except EventError Unit) :
    ι → FlushCall :=
  fun ack => if ack ∈ acks then .returned (flushes ack).before result else flushes ack

namespace SinkState

def accept (state : SinkState ι) (event : RuntimeEvent) : SinkState ι :=
  { state with
    queue := state.queue ++ [.event ⟨state.accepted.length, event⟩]
    accepted := state.accepted ++ [event] }

def take (state : SinkState ι) (maxBatch : Nat) (message : DrainMessage ι)
    (rest : List (DrainMessage ι)) : SinkState ι :=
  { state with queue := rest, drain := state.drain.take maxBatch message }

def appended (state : SinkState ι) (outcome : BatchOutcome) (batch : List Queued) (closed : Bool)
    (flushes : ι → FlushCall) : SinkState ι :=
  { state with
    drain := if closed then .stopped else .receiving
    durable := fun stream => state.durable stream ++ storedRows outcome batch stream
    flushes
    settled := state.settled + batch.length }

def apply (maxBatch : Nat) (state : SinkState ι) : SinkLabel ι → SinkState ι
  | .emit event =>
    match state.drain with
    | .stopped => state
    | _ =>
      if !state.senders then state
      else if state.queue.length + state.reserved < channelCapacity then state.accept event
      else { state with dropped := state.dropped + 1 }
  | .flush ack =>
    match state.flushes ack with
    | .idle =>
      if state.senders then
        { state with
          flushes := update state.flushes ack (.sending state.accepted.length) }
      else state
    | _ => state
  | .reserve ack =>
    match state.flushes ack with
    | .sending before =>
      if state.queue.length + state.reserved < channelCapacity then
        { state with
          reserved := state.reserved + 1
          flushes := update state.flushes ack (.permitted before) }
      else state
    | _ => state
  | .send ack =>
    match state.flushes ack with
    | .permitted before =>
      { state with
        queue := state.queue ++ [.flush ack]
        reserved := state.reserved - 1
        flushes := update state.flushes ack (.waiting before) }
    | _ => state
  | .receive =>
    match state.queue with
    | [] => state
    | message :: rest =>
      if state.drain.receives then state.take maxBatch message rest else state
  | .timeout =>
    match state.drain with
    | .collecting batch => { state with drain := .appending batch [] false }
    | _ => state
  | .finish =>
    if state.queue.isEmpty && !state.senders then
      match state.drain with
      | .receiving => { state with drain := .stopped }
      | .collecting batch => { state with drain := .appending batch [] true }
      | _ => state
    else state
  | .append outcome =>
    match state.drain with
    | .appending batch acks closed =>
      state.appended outcome batch closed (answerAll state.flushes acks
        (if batch = [] then .ok () else outcome.result batch.length))
    | _ => state
  | .dropSenders => { state with senders := false }
  | .abort => { state with drain := .stopped }
  | .notice ack =>
    match state.drain, state.flushes ack with
    | .stopped, .sending before | .stopped, .permitted before | .stopped, .waiting before =>
      { state with
        flushes := update state.flushes ack (.returned before (.error sinkClosed)) }
    | _, _ => state

end SinkState

end

def SinkState.fresh {ι : Type} : SinkState ι where
  queue := []
  reserved := 0
  drain := .receiving
  durable := fun _ => []
  flushes := fun _ => .idle
  dropped := 0
  senders := true
  accepted := []
  settled := 0

/-- A sink with a drain task whose windows hold at most the given number of events. -/
def sinkRuns (ι : Type) [DecidableEq ι] (maxBatch : Nat) : System (SinkState ι) (SinkLabel ι) :=
  .ofFunction (fun state => state = .fresh) (SinkState.apply maxBatch)

/-! ## The order of the queue -/

/-- The events the queue has taken, with their places. -/
def placed (accepted : List RuntimeEvent) : List Queued :=
  accepted.mapIdx fun place event => ⟨place, event⟩

variable (accepted : List RuntimeEvent)

theorem placed_append (event : RuntimeEvent) :
    placed (accepted ++ [event]) = placed accepted ++ [⟨accepted.length, event⟩] := by
  simp [placed, mapIdx_append]

@[simp]
theorem length_placed : (placed accepted).length = accepted.length := by
  simp [placed]

section

variable {ι : Type}

def eventsOf (queue : List (DrainMessage ι)) : List Queued :=
  queue.filterMap fun message =>
    match message with
    | .event item => some item
    | .flush _ => none

def flushesOf (queue : List (DrainMessage ι)) : List ι :=
  queue.filterMap fun message =>
    match message with
    | .event _ => none
    | .flush ack => some ack

theorem eventsOf_append (first second : List (DrainMessage ι)) :
    eventsOf (first ++ second) = eventsOf first ++ eventsOf second :=
  filterMap_append

namespace Drain

def batch : Drain ι → List Queued
  | .collecting batch | .appending batch _ _ => batch
  | _ => []

def acks : Drain ι → List ι
  | .appending _ acks _ => acks
  | _ => []

theorem take_spec {drain : Drain ι} (receives : drain.receives = true) (maxBatch : Nat)
    (message : DrainMessage ι) :
    (drain.take maxBatch message).batch = drain.batch ++ eventsOf [message] ∧
      (drain.take maxBatch message).acks = flushesOf [message] ∧
      drain.take maxBatch message ≠ .stopped := by
  cases drain with
  | receiving =>
    cases message with
    | event item =>
      rw [take]
      split <;> exact ⟨rfl, rfl, nofun⟩
    | flush ack => exact ⟨rfl, rfl, nofun⟩
  | collecting window =>
    cases message with
    | event =>
      rw [take]
      split <;> exact ⟨rfl, rfl, nofun⟩
    | flush => exact ⟨(append_nil window).symm, rfl, nofun⟩
  | appending | stopped => cases receives

end Drain

/-- What the drain has still to append, unless it is gone. -/
def SinkState.pending (state : SinkState ι) : Option (List Queued) :=
  match state.drain with
  | .stopped => none
  | drain => some (drain.batch ++ eventsOf state.queue)

theorem SinkState.pending_of_ne {state : SinkState ι} (running : state.drain ≠ .stopped) :
    state.pending = some (state.drain.batch ++ eventsOf state.queue) := by
  unfold pending
  split
  next stopped => exact absurd stopped running
  · rfl

/-- What is pending are the latest events of the queue; the durable ones came before them,
each stream in the order of the queue. -/
structure SinkState.InOrder (state : SinkState ι) : Prop where
  bound : state.settled ≤ state.accepted.length
  live : ∀ pending, state.pending = some pending →
    pending = (placed state.accepted).drop state.settled
  ascending : ∀ stream, (state.durable stream).Pairwise fun first second =>
    first.place < second.place
  durable : ∀ stream, ∀ item ∈ state.durable stream,
    item.place < state.settled ∧ state.accepted[item.place]? = some item.event ∧
      item.stream = stream

namespace SinkState.InOrder

variable {state next : SinkState ι}

variable (ordered : state.InOrder)
include ordered

theorem of_same (pending : next.pending = state.pending ∨ next.pending = none)
    (durable : next.durable = state.durable) (accepted : next.accepted = state.accepted)
    (settled : next.settled = state.settled) : next.InOrder where
  bound := by
    rw [settled, accepted]
    exact ordered.bound
  live := by
    intro found listed
    rcases pending with same | gone
    · rw [same] at listed
      rw [settled, accepted]
      exact ordered.live found listed
    · rw [gone] at listed
      cases listed
  ascending := by
    rw [durable]
    exact ordered.ascending
  durable := by
    rw [durable, accepted, settled]
    exact ordered.durable

theorem batch_eq (running : state.drain ≠ .stopped) :
    state.drain.batch ++ eventsOf state.queue = (placed state.accepted).drop state.settled :=
  ordered.live _ (pending_of_ne running)

theorem length_accepted (running : state.drain ≠ .stopped) : state.accepted.length =
      state.settled + state.drain.batch.length + (eventsOf state.queue).length := by
  have lengths := congrArg List.length (ordered.batch_eq running)
  have bound := ordered.bound
  rw [length_append, length_drop, length_placed] at lengths
  omega

theorem accept (event : RuntimeEvent) : (state.accept event).InOrder where
  bound := by
    have bound := ordered.bound
    simp only [SinkState.accept, length_append, length_singleton]
    omega
  live := by
    intro _ listed
    unfold SinkState.accept SinkState.pending at listed
    split at listed
    · cases listed
    rename_i running
    cases listed
    dsimp only [SinkState.accept]
    rw [eventsOf_append, ← append_assoc, ordered.batch_eq running, placed_append,
      drop_append_of_le_length (by rw [length_placed]; exact ordered.bound)]
    rfl
  ascending := ordered.ascending
  durable := by
    intro stream item listed
    obtain ⟨place, found, same⟩ := ordered.durable stream item listed
    exact ⟨place, getElem?_append_left (List.getElem?_eq_some_iff.mp found).1 ▸ found, same⟩

end SinkState.InOrder

theorem storedRows_sublist (outcome : BatchOutcome) (batch : List Queued)
    (stream : EventStreamKey) : (storedRows outcome batch stream).Sublist batch := by
  have kept := (filter_sublist (l := batch.zipIdx)
    (p := fun row => outcome.isStored row.2 && decide (row.1.stream = stream))).map (·.1)
  rwa [zipIdx_map_fst] at kept

namespace SinkState.InOrder

variable {state : SinkState ι}

theorem getElem_batch (ordered : state.InOrder) {index : Nat}
    (inside : index < state.drain.batch.length) :
    ∃ event, state.accepted[state.settled + index]? = some event ∧
      state.drain.batch[index] = ⟨state.settled + index, event⟩ := by
  have running : state.drain ≠ .stopped := by
    intro stopped
    rw [stopped] at inside
    cases inside
  have here : state.drain.batch[index]? = ((placed state.accepted).drop state.settled)[index]? := by
    rw [← ordered.batch_eq running, getElem?_append_left inside]
  rw [List.getElem?_eq_getElem inside, getElem?_drop, placed, getElem?_mapIdx,
    eq_comm, Option.map_eq_some_iff] at here
  obtain ⟨event, found, same⟩ := here
  exact ⟨event, found, same.symm⟩

theorem mem_batch (ordered : state.InOrder) {item : Queued} (inBatch : item ∈ state.drain.batch) :
    state.settled ≤ item.place ∧ item.place < state.settled + state.drain.batch.length ∧
      state.accepted[item.place]? = some item.event := by
  obtain ⟨_, inside, rfl⟩ := mem_iff_getElem.mp inBatch
  obtain ⟨_, found, same⟩ := ordered.getElem_batch inside
  rw [same]
  exact ⟨Nat.le_add_right _ _, Nat.add_lt_add_left inside _, found⟩

theorem pairwise_batch (ordered : state.InOrder) :
    state.drain.batch.Pairwise fun first second => first.place < second.place := by
  refine pairwise_iff_getElem.mpr fun first second firstIn secondIn before => ?_
  obtain ⟨_, _, firstSame⟩ := ordered.getElem_batch firstIn
  obtain ⟨_, _, secondSame⟩ := ordered.getElem_batch secondIn
  rw [firstSame, secondSame]
  exact Nat.add_lt_add_left before _

/-- A batch goes to the logs, or is lost; either way its window is settled. -/
theorem append (ordered : state.InOrder) {batch : List Queued} {acks : List ι} {closed : Bool}
    (appending : state.drain = .appending batch acks closed) (outcome : BatchOutcome)
    (flushes : ι → FlushCall) : (state.appended outcome batch closed flushes).InOrder := by
  obtain rfl : state.drain.batch = batch := by rw [appending]; rfl
  have running : state.drain ≠ .stopped := by rw [appending]; exact nofun
  have total := ordered.length_accepted running
  refine ⟨?_, ?_, ?_, ?_⟩
  · dsimp only [appended]
    omega
  · intro _ listed
    have rest : (placed state.accepted).drop (state.settled + state.drain.batch.length) =
        eventsOf state.queue := by
      rw [← drop_drop, ← ordered.batch_eq running, drop_left]
    unfold SinkState.pending at listed
    cases closed with
    | true => cases listed
    | false =>
      cases listed
      exact rest.symm
  · intro stream
    refine pairwise_append.mpr ⟨ordered.ascending stream, ?_, ?_⟩
    · exact ordered.pairwise_batch.sublist (storedRows_sublist outcome _ stream)
    · intro old oldStored new newStored
      have inBatch := (storedRows_sublist outcome _ stream).subset newStored
      have low := (ordered.mem_batch inBatch).1
      have high := (ordered.durable stream old oldStored).1
      omega
  · intro stream item stored
    rcases mem_append.mp stored with old | new
    · obtain ⟨place, found, same⟩ := ordered.durable stream item old
      exact ⟨Nat.lt_add_right _ place, found, same⟩
    · have inBatch := (storedRows_sublist outcome _ stream).subset new
      obtain ⟨_, high, found⟩ := ordered.mem_batch inBatch
      refine ⟨high, found, ?_⟩
      obtain ⟨_, kept, rfl⟩ := mem_map.mp new
      have passed := (mem_filter.mp kept).2
      simp only [Bool.and_eq_true, decide_eq_true_eq] at passed
      exact passed.2

end SinkState.InOrder

theorem SinkState.pending_receive {state : SinkState ι} {message : DrainMessage ι}
    {rest : List (DrainMessage ι)} (queued : state.queue = message :: rest)
    (receives : state.drain.receives = true) (maxBatch : Nat) :
    (state.take maxBatch message rest).pending = state.pending := by
  have running : state.drain ≠ .stopped := by
    intro stopped
    rw [stopped] at receives
    cases receives
  rw [pending_of_ne running, queued]
  obtain ⟨windowed, _, moved⟩ := Drain.take_spec receives maxBatch message
  rw [pending_of_ne (by exact moved), take, windowed, append_assoc, ← eventsOf_append]
  rfl

end

/-! ## What a flush waits for -/

section

variable {ι : Type}

/-- The flush was made and waits for no more than the first events of the queue. -/
def FlushCall.WaitsFor (bound : Nat) (call : FlushCall) : Prop := call.before ≤ bound ∧ call ≠ .idle

/-- Every flush in the queue waits only for events before it; the given number of events is
before the queue. -/
def Behind (flushes : ι → FlushCall) : Nat → List (DrainMessage ι) → Prop
  | _, [] => True
  | bound, .event _ :: rest => Behind flushes (bound + 1) rest
  | bound, .flush ack :: rest => (flushes ack).WaitsFor bound ∧ Behind flushes bound rest

variable {ack : ι} {bound : Nat} {flushes next : ι → FlushCall}

theorem behind_append {flushes : ι → FlushCall} {queue more : List (DrainMessage ι)} :
    Behind flushes bound (queue ++ more) ↔
      Behind flushes bound queue ∧ Behind flushes (bound + (eventsOf queue).length) more := by
  induction queue generalizing bound with
  | nil => exact ⟨fun rest => ⟨trivial, rest⟩, And.right⟩
  | cons message rest ih =>
    cases message with
    | event item =>
      have count : bound + (eventsOf (DrainMessage.event item :: rest)).length =
          bound + 1 + (eventsOf rest).length := by
        simp [eventsOf]
        omega
      rw [cons_append, Behind, ih, Behind, count]
    | flush ack =>
      have count : eventsOf (DrainMessage.flush ack :: rest) = eventsOf rest := rfl
      rw [cons_append, Behind, ih, Behind, count, and_assoc]

/-- A flush that is past its call keeps what it waits for. -/
def Remember (flushes next : ι → FlushCall) : Prop :=
  ∀ ack, flushes ack ≠ .idle → (next ack).before = (flushes ack).before ∧ next ack ≠ .idle

theorem Remember.waitsFor (keeps : Remember flushes next) (waits : (flushes ack).WaitsFor bound) :
    (next ack).WaitsFor bound := by
  obtain ⟨same, called⟩ := keeps ack waits.2
  exact ⟨same ▸ waits.1, called⟩

theorem Remember.behind (keeps : Remember flushes next) {queue : List (DrainMessage ι)}
    (behind : Behind flushes bound queue) : Behind next bound queue := by
  induction queue generalizing bound with
  | nil => trivial
  | cons message _ ih =>
    cases message with
    | event => exact ih behind
    | flush => exact ⟨keeps.waitsFor behind.1, ih behind.2⟩

def SinkState.Stored (state : SinkState ι) (place : Nat) : Prop :=
  ∃ stream, ∃ item ∈ state.durable stream, item.place = place

/-- A flush waits for events before it only, and one that was answered without error waited
for events that are stored. -/
structure SinkState.Guaranteed (state : SinkState ι) : Prop where
  called : ∀ ack, (state.flushes ack).before ≤ state.accepted.length
  queued : state.drain ≠ .stopped →
    Behind state.flushes (state.settled + state.drain.batch.length) state.queue
  window : ∀ ack ∈ state.drain.acks,
    (state.flushes ack).WaitsFor (state.settled + state.drain.batch.length)
  answered : ∀ ack before, state.flushes ack = .returned before (.ok ()) →
    ∀ place < before, state.Stored place

theorem mem_storedRows {outcome : BatchOutcome} {batch : List Queued} {index : Nat}
    (bound : index < batch.length) (stored : outcome.isStored index = true) :
    batch[index] ∈ storedRows outcome batch batch[index].stream := by
  refine mem_map.mpr ⟨(batch[index], index), mem_filter.mpr ⟨?_, ?_⟩, rfl⟩
  · exact mem_zipIdx_iff_getElem?.mpr (List.getElem?_eq_getElem bound)
  · simp [stored]

namespace SinkState.Guaranteed

variable {state : SinkState ι}

variable (guaranteed : state.Guaranteed)
include guaranteed

/-- A call that waits or ends with an error does not touch the guarantee. -/
theorem update_flush [DecidableEq ι] (reserved : Nat) {ack : ι} {next : FlushCall}
    (same : state.flushes ack = .idle ∧ next.before ≤ state.accepted.length ∨
      next.before = (state.flushes ack).before) (called : next ≠ .idle)
    (unanswered : ∀ before, next ≠ .returned before (.ok ())) :
    SinkState.Guaranteed { state with
      reserved
      flushes := update state.flushes ack next } := by
  have keeps : Remember state.flushes (update state.flushes ack next) :=
    (forall_update_iff state.flushes fun other call => state.flushes other ≠ .idle →
      call.before = (state.flushes other).before ∧ call ≠ .idle).mpr
        ⟨fun busy => ⟨same.resolve_left (busy ·.1), called⟩, fun _ _ called => ⟨rfl, called⟩⟩
  refine ⟨?_, fun running => keeps.behind (guaranteed.queued running),
    fun ack listed => keeps.waitsFor (guaranteed.window ack listed), ?_⟩
  · exact (forall_update_iff state.flushes fun _ call => call.before ≤ state.accepted.length).mpr
        ⟨same.elim And.right (· ▸ guaranteed.called ack), fun other _ => guaranteed.called other⟩
  · exact (forall_update_iff state.flushes fun _ call => ∀ before,
      call = .returned before (.ok ()) → ∀ place < before, state.Stored place).mpr
        ⟨fun before returned => absurd returned (unanswered before), fun other _ =>
          guaranteed.answered other⟩

theorem accept (event : RuntimeEvent) : (state.accept event).Guaranteed where
  called ack := by
    have bound := guaranteed.called ack
    simp only [SinkState.accept, length_append]
    omega
  queued running := behind_append.mpr ⟨guaranteed.queued running, trivial⟩
  __ := guaranteed

theorem send [DecidableEq ι] (ordered : state.InOrder) {ack : ι} {before : Nat}
    (permitted : state.flushes ack = .permitted before) : SinkState.Guaranteed { state with
      queue := state.queue ++ [.flush ack]
      reserved := state.reserved - 1
      flushes := update state.flushes ack (.waiting before) } := by
  have bound := guaranteed.called ack
  rw [permitted] at bound
  have updated : SinkState.Guaranteed { state with
      reserved := state.reserved - 1
      flushes := update state.flushes ack (.waiting before) } :=
    guaranteed.update_flush _ (.inr (by rw [permitted]; rfl)) nofun nofun
  refine { updated with queued := fun running => ?_ }
  refine behind_append.mpr ⟨updated.queued running, ⟨?_, trivial⟩⟩
  have total := ordered.length_accepted running
  dsimp only
  rw [update_self]
  exact ⟨total ▸ bound, nofun⟩

theorem receive {message : DrainMessage ι} {rest : List (DrainMessage ι)}
    (queued : state.queue = message :: rest) (receives : state.drain.receives = true)
    (maxBatch : Nat) : (state.take maxBatch message rest).Guaranteed := by
  have running : state.drain ≠ .stopped := by
    intro stopped
    rw [stopped] at receives
    cases receives
  have behind := guaranteed.queued running
  rw [queued] at behind
  obtain ⟨windowed, waiting, _⟩ := Drain.take_spec receives maxBatch message
  refine ⟨guaranteed.called, fun _ => ?_, ?_, guaranteed.answered⟩
  · dsimp only [SinkState.take]
    rw [windowed, length_append]
    cases message with
    | event => exact behind
    | flush ack => exact behind.2
  · dsimp only [SinkState.take]
    rw [windowed, waiting]
    intro _ listed
    cases message with
    | event => cases listed
    | flush =>
      rw [mem_singleton.mp listed, length_append]
      exact behind.1

theorem close {batch : List Queued} (collecting : state.drain = .collecting batch) (closed : Bool) :
    SinkState.Guaranteed { state with drain := .appending batch [] closed } where
  __ := guaranteed
  queued _ := by
    have behind := guaranteed.queued (by rw [collecting]; exact nofun)
    rw [collecting] at behind
    exact behind
  window := nofun

theorem stop : SinkState.Guaranteed { state with drain := .stopped } where
  __ := guaranteed
  queued running := absurd rfl running
  window := nofun

/-- The flushes of a window hear of what it loses, and wait for nothing else that is lost. -/
theorem append [DecidableEq ι] (ordered : state.InOrder) {batch : List Queued} {acks : List ι}
    {closed : Bool} (appending : state.drain = .appending batch acks closed)
    {outcome : BatchOutcome} {result : Except EventError Unit}
    (stored : result = .ok () → ∀ row < batch.length, outcome.isStored row = true)
    (kept : ∀ ack ∈ state.drain.acks, ∀ place < (state.flushes ack).before,
      place < state.settled → state.Stored place) :
    (state.appended outcome batch closed (answerAll state.flushes acks result)).Guaranteed := by
  obtain rfl : state.drain.batch = batch := by rw [appending]; rfl
  obtain rfl : state.drain.acks = acks := by rw [appending]; rfl
  have running : state.drain ≠ .stopped := by rw [appending]; exact nofun
  have keeps : Remember state.flushes (answerAll state.flushes state.drain.acks result) := by
    intro ack called
    unfold answerAll
    split
    · exact ⟨rfl, nofun⟩
    · exact ⟨rfl, called⟩
  have idle : (if closed then Drain.stopped else Drain.receiving : Drain ι).batch = [] ∧
      (if closed then Drain.stopped else Drain.receiving : Drain ι).acks = [] := by
    cases closed <;> exact ⟨rfl, rfl⟩
  have grown : ∀ place, state.Stored place → SinkState.Stored { state with
      durable := fun stream => state.durable stream ++
        storedRows outcome state.drain.batch stream } place := by
    rintro place ⟨stream, item, listed, same⟩
    exact ⟨stream, item, mem_append_left _ listed, same⟩
  refine ⟨?_, ?_, ?_, ?_⟩
  · intro ack
    have bound := guaranteed.called ack
    dsimp only [appended, answerAll]
    split <;> exact bound
  · intro _
    rw [appended, idle.1]
    exact keeps.behind (guaranteed.queued running)
  · rw [appended, idle.2]
    exact nofun
  · intro ack before returned place below
    dsimp only [appended, answerAll] at returned
    split at returned
    next listed =>
      cases returned
      by_cases old : place < state.settled
      · exact grown place (kept ack listed place below old)
      · have bound := (guaranteed.window ack listed).1
        have inside : place - state.settled < state.drain.batch.length := by omega
        obtain ⟨_, _, same⟩ := ordered.getElem_batch inside
        refine ⟨_, _, mem_append_right _ (mem_storedRows inside (stored rfl _ inside)), ?_⟩
        rw [same]
        exact Nat.add_sub_of_le (not_lt.mp old)
    · exact grown place (guaranteed.answered ack before returned place below)

end SinkState.Guaranteed

/-- No flush that the step answers waits for an event that an earlier window lost. -/
def SinkState.LostNothing (state : SinkState ι) : SinkLabel ι → Prop
  | .append _ => ∀ ack ∈ state.drain.acks, ∀ place < (state.flushes ack).before,
      place < state.settled → state.Stored place
  | _ => True

/-- A step keeps the order, whatever it loses, and the guarantee where it loses nothing that
its flushes wait for. -/
def SinkState.Keeps (state : SinkState ι) (label : SinkLabel ι) (after : SinkState ι) : Prop :=
  after.InOrder ∧ (state.LostNothing label → state.Guaranteed → after.Guaranteed)

theorem SinkState.apply_keeps [DecidableEq ι] {state : SinkState ι} (ordered : state.InOrder)
    (maxBatch : Nat) (label : SinkLabel ι) : state.Keeps label (state.apply maxBatch label) := by
  have idle : state.Keeps label state := ⟨ordered, fun _ => id⟩
  have flushed : ∀ (reserved : Nat) {ack : ι} {next : FlushCall},
      state.flushes ack = .idle ∧ next.before ≤ state.accepted.length ∨
        next.before = (state.flushes ack).before → next ≠ .idle →
      (∀ before, next ≠ .returned before (.ok ())) →
      state.Keeps label { state with reserved, flushes := update state.flushes ack next } :=
    fun reserved _ _ same called unanswered => ⟨ordered.of_same (.inl rfl) rfl rfl rfl,
      fun _ guaranteed => guaranteed.update_flush reserved same called unanswered⟩
  have closed : ∀ {batch : List Queued}, state.drain = .collecting batch → ∀ closed : Bool,
      state.Keeps label { state with drain := .appending batch [] closed } := by
    intro batch collecting closed
    refine ⟨ordered.of_same (.inl ?_) rfl rfl rfl, fun _ guaranteed =>
      guaranteed.close collecting _⟩
    simp only [pending, collecting]
    rfl
  have stopped : state.Keeps label { state with drain := .stopped } :=
    ⟨ordered.of_same (.inr rfl) rfl rfl rfl, fun _ guaranteed => guaranteed.stop⟩
  cases label with
  | emit event =>
    dsimp only [apply]
    split
    · exact idle
    split
    · exact idle
    split
    · exact ⟨ordered.accept event, fun _ guaranteed => guaranteed.accept event⟩
    · exact ⟨ordered.of_same (.inl rfl) rfl rfl rfl, fun _ guaranteed => { guaranteed with }⟩
  | flush ack =>
    dsimp only [apply]
    split
    next uncalled =>
      split
      · exact flushed state.reserved (.inl ⟨uncalled, Nat.le_refl _⟩) nofun nofun
      · exact idle
    · exact idle
  | reserve ack =>
    dsimp only [apply]
    split
    next sending =>
      split
      · exact flushed _ (.inr (by rw [sending]; rfl)) nofun nofun
      · exact idle
    · exact idle
  | send ack =>
    dsimp only [apply]
    split
    next permitted =>
      refine ⟨ordered.of_same (.inl ?_) rfl rfl rfl, fun _ guaranteed =>
        guaranteed.send ordered permitted⟩
      simp [pending, eventsOf]
    · exact idle
  | receive =>
    dsimp only [apply]
    split
    · exact idle
    next queued =>
      split
      next receives =>
        exact ⟨ordered.of_same (.inl (pending_receive queued receives maxBatch)) rfl rfl rfl,
          fun _ guaranteed => guaranteed.receive queued receives maxBatch⟩
      · exact idle
  | timeout =>
    dsimp only [apply]
    split
    next collecting => exact closed collecting false
    · exact idle
  | finish =>
    dsimp only [apply]
    split
    · split
      · exact stopped
      next collecting => exact closed collecting true
      · exact idle
    · exact idle
  | append outcome =>
    dsimp only [apply]
    split
    next batch acks _ appending =>
      refine ⟨ordered.append appending outcome _, fun kept guaranteed =>
        guaranteed.append ordered appending (fun ok row listed => ?_) kept⟩
      rw [if_neg (by rintro rfl; cases listed)] at ok
      exact BatchOutcome.isStored_of_result ok listed
    · exact idle
  | dropSenders =>
    exact ⟨ordered.of_same (.inl rfl) rfl rfl rfl, fun _ guaranteed => { guaranteed with }⟩
  | abort => exact stopped
  | notice ack =>
    dsimp only [apply]
    split <;> try exact idle
    all_goals
      rename_i called
      exact flushed state.reserved (.inr (by rw [called]; rfl)) nofun nofun

theorem sinkRuns.inOrder [DecidableEq ι] {maxBatch : Nat} {state : SinkState ι}
    {guard : SinkState ι → SinkLabel ι → Prop}
    (reached : (sinkRuns ι maxBatch).Reachable guard state) : state.InOrder := by
  refine reached.invariant SinkState.InOrder ?_ ?_
  · rintro _ rfl
    exact ⟨Nat.le_refl _, fun _ pending => (Option.some.inj pending).symm, fun _ => .nil, nofun⟩
  · rintro before label _ ordered _ rfl
    exact (before.apply_keeps ordered maxBatch label).1

/-- Where no flush is answered that waits for an event an earlier window lost, a flush that
returned without error waited for durable events only: everything the queue had taken when
the flush was called.  In every run the events of a stream become durable in the order of
the queue. -/
theorem sinkRuns.flush_durable [DecidableEq ι] {maxBatch : Nat} {state : SinkState ι} :
    ((sinkRuns ι maxBatch).Reachable SinkState.LostNothing state →
      ∀ ack before, state.flushes ack = .returned before (.ok ()) → ∀ place < before,
        ∃ event, state.accepted[place]? = some event ∧
          ⟨place, event⟩ ∈ state.durable (.fromScope event.scope)) ∧
    ((sinkRuns ι maxBatch).Reachable System.anyStep state →
      ∀ stream, (state.durable stream).Pairwise (fun first second => first.place < second.place) ∧
        ∀ item ∈ state.durable stream, state.accepted[item.place]? = some item.event) := by
  constructor
  · intro reached ack before returned place bound
    have both : state.InOrder ∧ state.Guaranteed := by
      refine reached.invariant (fun state => state.InOrder ∧ state.Guaranteed) ?_ ?_
      · rintro _ rfl
        exact ⟨inOrder (.start rfl : (sinkRuns ι maxBatch).Reachable System.anyStep _),
          fun _ => Nat.le_refl _, fun _ => trivial, nofun, nofun⟩
      · rintro before label _ ⟨ordered, guaranteed⟩ kept rfl
        obtain ⟨ordered, keeps⟩ := before.apply_keeps ordered maxBatch label
        exact ⟨ordered, keeps kept guaranteed⟩
    obtain ⟨_, ⟨_, event⟩, stored, rfl⟩ := both.2.answered ack before returned place bound
    obtain ⟨_, found, rfl⟩ := both.1.durable _ _ stored
    exact ⟨event, found, stored⟩
  · intro reached stream
    have ordered := inOrder reached
    exact ⟨ordered.ascending stream, fun item stored => (ordered.durable stream item stored).2.1⟩

end

/-! ## A flush after a lost window -/

def lostEvent : RuntimeEvent := ⟨7, .system ⟨0⟩, none⟩

/-- The flush is called after the first of two events and sent when the window of the second
has failed. -/
def lateFlush : List (SinkLabel Unit) :=
  [.emit lostEvent, .flush (), .emit lostEvent, .receive, .timeout,
    .append (.answered fun _ => .appended), .receive, .timeout,
    .append (.answered fun _ => .rejected "backend unavailable" false),
    .reserve (), .send (), .receive, .append (.answered fun _ => .appended)]

theorem lateFlush_durable :
    let state := lateFlush.foldl (SinkState.apply 256) (.fresh : SinkState Unit)
    state.flushes () = .returned 1 (.ok ()) ∧ state.settled = 2 ∧
      ∃ event, state.accepted[0]? = some event ∧
        ⟨0, event⟩ ∈ state.durable (.fromScope event.scope) := by
  have started : (sinkRuns Unit 256).Reachable SinkState.LostNothing .fresh := .start rfl
  have reached := started.followAllowed lateFlush
    ⟨trivial, trivial, trivial, trivial, trivial, nofun, trivial, trivial, nofun, trivial, trivial,
      trivial, fun _ _ place below _ => ?_, trivial⟩
  · exact ⟨rfl, rfl, (sinkRuns.flush_durable.1 reached) () 1 rfl 0 Nat.zero_lt_one⟩
  · refine ⟨.fromScope lostEvent.scope, ⟨0, lostEvent⟩, .head _, ?_⟩
    exact (Nat.lt_one_iff.mp below).symm

/-- The window of the event is over and its append has failed before the flush comes. -/
def twoWindows : List (SinkLabel Unit) :=
  [.emit lostEvent, .receive, .timeout,
    .append (.answered fun _ => .rejected "backend unavailable" false),
    .flush (), .reserve (), .send (), .receive, .append (.answered fun _ => .appended)]

/-- The flush waits for an event that is lost, and returns without error. -/
theorem flush_after_lost_window :
    ∃ state : SinkState Unit, (sinkRuns Unit 256).Reachable System.anyStep state ∧
      state.flushes () = .returned 1 (.ok ()) ∧ state.dropped = 0 ∧
      state.accepted[0]? = some lostEvent ∧ ∀ stream, state.durable stream = [] := by
  have started : (sinkRuns Unit 256).Reachable System.anyStep .fresh := .start rfl
  exact ⟨_, started.follow twoWindows, rfl, rfl, rfl, fun _ => rfl⟩

end Ironclaw.Events
