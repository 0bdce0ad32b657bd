import Ironclaw.Lib.Listing
import Ironclaw.Turns.Records

/-!
# Reading the event log page by page

A reader asks for the events of a scope behind a cursor and gets at most a page of them,
with the cursor to continue from.  A reader that is behind the retention floor has missed
events and is asked to start over.
-/

namespace Ironclaw.Turns

open HostApi Lib TurnLifecycleEvent
open List

structure TurnEventPage where
  entries : List TurnLifecycleEvent
  nextCursor : EventCursor
  truncated : Bool
  rebaseRequired : Option EventCursor

/-- The filter of a reader: its scope, and its owner if it names one. -/
def TurnLifecycleEvent.isFor (scope : TurnScope) (ownerUserId : Option UserId)
    (event : TurnLifecycleEvent) : Bool :=
  event.scope = scope && ownerUserId.all fun owner => event.ownerUserId = some owner

def projectTurnEvents (events : List TurnLifecycleEvent) (scope : TurnScope)
    (ownerUserId : Option UserId) (after : Option EventCursor) (limit : Nat)
    (retentionFloor : EventCursor) : TurnEventPage :=
  let after := after.getD ⟨0⟩
  let scopedEvents := sortByKey (fun event => event.cursor.value)
    (events.filter (·.isFor scope ownerUserId))
  let rebaseRequired : Option EventCursor :=
    if retentionFloor.value > 0 ∧ after.value < retentionFloor.value then some retentionFloor
    else
      match scopedEvents.getLast? with
      | some latest => if after.value > latest.cursor.value then some latest.cursor else none
      | none => if after.value > retentionFloor.value then some retentionFloor else none
  match rebaseRequired with
  | some rebaseCursor => ⟨[], rebaseCursor, false, some rebaseCursor⟩
  | none =>
    let found := scopedEvents.filter fun event => event.cursor.value > after.value
    let truncated := decide (found.length > limit)
    let page := if truncated then found.take limit else found
    ⟨page, (page.getLast?.map cursor).getD after, truncated, none⟩

/-- A reader that calls again from the next cursor as long as there are more pages.  An answer
that asks it to start over is no page. -/
def readPages (call : Option EventCursor → TurnEventPage) :
    Nat → Option EventCursor → Option (List TurnLifecycleEvent)
  | 0, _ => none
  | calls + 1, after =>
    let page := call after
    if page.rebaseRequired.isSome then none
    else if page.truncated then
      (readPages call calls (some page.nextCursor)).map (page.entries ++ ·)
    else some page.entries

def eventsAfter (events : List TurnLifecycleEvent) (cursor : EventCursor) :
    List TurnLifecycleEvent :=
  events.filter fun event => event.cursor.value > cursor.value

def Increasing (events : List TurnLifecycleEvent) : Prop :=
  events.Pairwise fun first second => first.cursor.value < second.cursor.value

/-- Where a list of events ends: its last cursor, or the floor. -/
def headCursor (events : List TurnLifecycleEvent) (floor : EventCursor) : EventCursor :=
  (events.getLast?.map cursor).getD floor

variable {events : List TurnLifecycleEvent} {limit : Nat} {floor cursor : EventCursor}

theorem headCursor_concat (last : TurnLifecycleEvent) :
    headCursor (events ++ [last]) floor = last.cursor := by
  rw [headCursor, getLast?_concat]
  rfl

theorem le_headCursor (increasing : Increasing events) {event : TurnLifecycleEvent}
    (listed : event ∈ events) : event.cursor.value ≤ (headCursor events floor).value := by
  obtain rfl | ⟨before, last, rfl⟩ := eq_nil_or_concat' events
  · cases listed
  rw [headCursor_concat]
  rcases mem_append.mp listed with earlier | same
  · exact ((pairwise_append.mp increasing).2.2 event earlier last mem_cons_self).le
  · rw [mem_singleton.mp same]

theorem eventsAfter_page (increasing : Increasing events) (positive : 0 < limit)
    (more : limit < (eventsAfter events cursor).length) :
    let next := headCursor ((eventsAfter events cursor).take limit) cursor
    eventsAfter events next = (eventsAfter events cursor).drop limit ∧
      cursor.value < next.value ∧ next.value ≤ (headCursor events floor).value := by
  have split := take_append_drop limit (eventsAfter events cursor)
  have ordered : Increasing (eventsAfter events cursor) := increasing.sublist filter_sublist
  obtain empty | ⟨page, last, shape⟩ := eq_nil_or_concat' ((eventsAfter events cursor).take limit)
  · rcases take_eq_nil_iff.mp empty with none | nothing
    · omega
    · simp [nothing] at more
  rw [shape] at split ⊢
  rw [← split, Increasing, pairwise_append] at ordered
  obtain ⟨first, _, apart⟩ := ordered
  have behind : last ∈ eventsAfter events cursor := split ▸ by simp
  have above : cursor.value < last.cursor.value := by simpa using (mem_filter.mp behind).2
  have narrows : eventsAfter events last.cursor =
      eventsAfter (eventsAfter events cursor) last.cursor := by
    rw [eventsAfter, eventsAfter, eventsAfter, filter_filter]
    exact filter_congr fun event _ => by simp; omega
  rw [headCursor_concat]
  refine ⟨?_, above, le_headCursor increasing (mem_filter.mp behind).1⟩
  rw [narrows, eventsAfter]
  nth_rewrite 1 [← split]
  rw [filter_append, filter_eq_nil_iff.mpr, nil_append, filter_eq_self.mpr]
  · intro event later
    exact decide_eq_true (apart last (by simp) event later)
  · intro event earlier
    rcases mem_append.mp earlier with before | same
    · have := (pairwise_append.mp first).2.2 event before last (by simp)
      simp; omega
    · simp [mem_singleton.mp same]

variable (scope : TurnScope) (ownerUserId : Option UserId) {after : Option EventCursor}

/-- The three answers: a reader is behind the floor, or ahead of its last event, or gets a
page. -/
theorem projectTurnEvents_eq (increasing : Increasing events) :
    projectTurnEvents events scope ownerUserId after limit floor =
      let own := events.filter (·.isFor scope ownerUserId)
      let start := after.getD ⟨0⟩
      let page := (eventsAfter own start).take limit
      if start.value < floor.value then ⟨[], floor, false, some floor⟩
      else if (headCursor own floor).value < start.value then
        ⟨[], headCursor own floor, false, some (headCursor own floor)⟩
      else
        ⟨page, headCursor page start, decide ((eventsAfter own start).length > limit), none⟩ := by
  have ordered : Increasing (events.filter (·.isFor scope ownerUserId)) :=
    increasing.sublist filter_sublist
  unfold projectTurnEvents
  generalize events.filter (·.isFor scope ownerUserId) = own at ordered
  generalize after.getD ⟨0⟩ = start
  have sorted : sortByKey (fun event => event.cursor.value) own = own :=
    List.Pairwise.insertionSort_eq (ordered.imp Nat.le_of_lt)
  simp only [sorted]
  by_cases below : start.value < floor.value
  · rw [if_pos ⟨by omega, below⟩, if_pos below]
  rw [if_neg (below ·.2), if_neg below]
  have asked : (match own.getLast? with
      | some latest => if start.value > latest.cursor.value then some latest.cursor else none
      | none => if start.value > floor.value then some floor else none) =
      if (headCursor own floor).value < start.value then some (headCursor own floor) else none := by
    unfold headCursor
    cases own.getLast? <;> rfl
  rw [asked]
  by_cases beyond : (headCursor own floor).value < start.value
  · rw [if_pos beyond, if_pos beyond]
  · rw [if_neg beyond, if_neg beyond]
    have page : (if decide ((eventsAfter own start).length > limit) = true then
        (eventsAfter own start).take limit else eventsAfter own start) =
        (eventsAfter own start).take limit := by
      split
      · rfl
      next short => exact (take_of_length_le (by simpa using short)).symm
    unfold headCursor
    unfold eventsAfter at page ⊢
    simp only [page]

theorem readPages_of_reached (increasing : Increasing events) (positive : 0 < limit)
    (reached : floor.value ≤ (after.getD ⟨0⟩).value)
    (within : (after.getD ⟨0⟩).value ≤
      (headCursor (events.filter (·.isFor scope ownerUserId)) floor).value) {calls : Nat}
    (enough : (eventsAfter (events.filter (·.isFor scope ownerUserId))
      (after.getD ⟨0⟩)).length < calls) :
    readPages (projectTurnEvents events scope ownerUserId · limit floor) calls after =
      some (eventsAfter (events.filter (·.isFor scope ownerUserId)) (after.getD ⟨0⟩)) := by
  have ordered : Increasing (events.filter (·.isFor scope ownerUserId)) :=
    increasing.sublist filter_sublist
  induction calls generalizing after with
  | zero => cases enough
  | succ _ ih =>
    rw [readPages, projectTurnEvents_eq scope ownerUserId increasing]
    simp only [if_neg (Nat.not_lt.mpr reached), if_neg (Nat.not_lt.mpr within),
      Option.isSome_none, Bool.false_eq_true, if_false]
    split
    next more =>
      rw [decide_eq_true_eq] at more
      obtain ⟨left, later, before⟩ := eventsAfter_page ordered positive more
      rw [ih (by exact reached.trans later.le) (by exact before)]
      · rw [Option.getD_some, left, Option.map_some, take_append_drop]
      · rw [Option.getD_some, left, length_drop]
        omega
    next last =>
      rw [decide_eq_true_eq, not_lt] at last
      rw [take_of_length_le last]

/-- A reader whose cursor is between the floor and the last event for it reads, page by page,
exactly the retained events for it behind its cursor.  One whose cursor is below the floor or
ahead of that event is asked to start over. -/
theorem paging_is_complete (events : List TurnLifecycleEvent) (scope : TurnScope)
    (ownerUserId : Option UserId) (start : Option EventCursor) (limit : Nat) (floor : EventCursor)
    (increasing : Increasing events) (positive : 0 < limit) :
    let call := (projectTurnEvents events scope ownerUserId · limit floor)
    let cursor := start.getD ⟨0⟩
    let mine := events.filter fun event =>
      event.scope = scope ∧ ∀ owner ∈ ownerUserId, event.ownerUserId = some owner
    let head := headCursor mine floor
    (floor.value ≤ cursor.value → cursor.value ≤ head.value →
      ∀ calls, (eventsAfter mine cursor).length < calls →
        readPages call calls start = some (eventsAfter mine cursor)) ∧
    (cursor.value < floor.value → call start = ⟨[], floor, false, some floor⟩) ∧
    (floor.value ≤ cursor.value → head.value < cursor.value →
      call start = ⟨[], head, false, some head⟩) := by
  intro call cursor mine head
  have same : events.filter (·.isFor scope ownerUserId) = mine := by
    refine filter_congr fun event _ => ?_
    cases ownerUserId <;> simp [isFor]
  refine ⟨fun reached within _ enough => ?_, fun below => ?_, fun reached beyond => ?_⟩
  · rw [← same] at enough ⊢
    exact readPages_of_reached scope ownerUserId increasing positive reached
      (by rw [same]; exact within) enough
  all_goals
    simp only [call]
    rw [projectTurnEvents_eq scope ownerUserId increasing, same]
  · exact if_pos below
  · exact (if_neg (Nat.not_lt.mpr reached)).trans (if_pos beyond)

def pagedScope (thread : String) : TurnScope := ⟨⟨"tenant"⟩, none, none, ⟨thread⟩, .actorFallback⟩

def pagedEvent (cursor : Nat) (thread owner : String) : TurnLifecycleEvent :=
  ⟨⟨cursor⟩, pagedScope thread, none, some ⟨owner⟩, ⟨1⟩, .running, .runnerHeartbeat, none, none,
    none, none⟩

/-- Events of two threads and two owners; what came before the third is no longer retained. -/
def pagedEvents : List TurnLifecycleEvent :=
  [pagedEvent 3 "mine" "user", pagedEvent 4 "other" "user", pagedEvent 5 "mine" "guest",
    pagedEvent 6 "mine" "user", pagedEvent 7 "other" "user"]

theorem pagedEvents_increasing : Increasing pagedEvents := by
  unfold Increasing
  decide

theorem paging_skips_others :
    readPages (projectTurnEvents pagedEvents (pagedScope "mine") (some ⟨"user"⟩) · 1 ⟨2⟩) 3
      (some ⟨2⟩) = some [pagedEvent 3 "mine" "user", pagedEvent 6 "mine" "user"] :=
  (paging_is_complete pagedEvents (pagedScope "mine") (some ⟨"user"⟩) (some ⟨2⟩) 1 ⟨2⟩
    pagedEvents_increasing (by decide)).1 (by decide) (by decide) 3 (by decide)

/-- A reader that continues behind the last event of all is asked to start over. -/
theorem cursor_beyond_own_events_rebases :
    let call := (projectTurnEvents pagedEvents (pagedScope "mine") (some ⟨"user"⟩) · 1 ⟨2⟩)
    Increasing pagedEvents ∧ (∀ event ∈ pagedEvents, 2 < event.cursor.value) ∧
      call (some ⟨7⟩) = ⟨[], ⟨6⟩, false, some ⟨6⟩⟩ ∧
      ∀ calls, readPages call calls (some ⟨7⟩) = none := by
  refine ⟨pagedEvents_increasing, by decide, rfl, fun calls => ?_⟩
  cases calls <;> rfl

end Ironclaw.Turns
