import Ironclaw.Hooks.TenantIsolation

/-!
# Caps on invocations

A call whose id is that of a sample in the window is answered from that sample and takes no
room of its own.  So an id counts where a call recorded it: the ids that admitted calls record
within one window are at most as many as the bound allows, while a repeated id may be let
through again after its sample has left the window of the later calls.
-/

namespace Ironclaw.Hooks

open Ironclaw.Lib PredicateState Table RecordResult

/-! ## The samples of a bucket -/

namespace InvocationBucket

/-- The ids are those of the samples, each there once, and the samples are in order of time. -/
structure Orderly (bucket : InvocationBucket) : Prop where
  ids : bucket.dedupIds = (bucket.entries.map InvocationSample.id).toFinset
  nodup : (bucket.entries.map InvocationSample.id).Nodup
  sorted : bucket.entries.Pairwise fun first second => first.time ≤ second.time

theorem orderly_default : default.Orderly := ⟨rfl, .nil, .nil⟩

variable {bucket : InvocationBucket} (orderly : bucket.Orderly)
include orderly

theorem Orderly.trim (cutoff : Time) : (bucket.trim cutoff).Orderly ∧
    ∀ sample, sample ∈ (bucket.trim cutoff).entries ↔
      sample ∈ bucket.entries ∧ cutoff ≤ sample.time := by
  obtain ⟨entries, ids⟩ := bucket
  unfold InvocationBucket.trim
  induction entries generalizing ids with
  | nil => exact ⟨orderly, by simp [dropBefore]⟩
  | cons first rest ih =>
    obtain ⟨listed, nodup, sorted⟩ := orderly
    have listed : ids = ((first :: rest).map InvocationSample.id).toFinset := listed
    subst listed
    obtain ⟨earliest, later⟩ := List.pairwise_cons.mp sorted
    obtain ⟨unlisted, distinct⟩ := List.nodup_cons.mp nodup
    rw [dropBefore]
    split
    next old =>
      have erased : ((first :: rest).map InvocationSample.id).toFinset.erase first.id =
          (rest.map InvocationSample.id).toFinset := by
        rw [List.map_cons, List.toFinset_cons, Finset.erase_insert (by simpa using unlisted)]
      rw [erased]
      obtain ⟨kept, members⟩ := ih (rest.map InvocationSample.id).toFinset ⟨rfl, distinct, later⟩
      refine ⟨kept, fun sample => (members sample).trans ?_⟩
      rw [List.mem_cons, or_and_right]
      refine ⟨.inr, fun either => either.resolve_left ?_⟩
      rintro ⟨rfl, young⟩
      exact Int.not_lt.mpr young old
    next young =>
      refine ⟨⟨rfl, nodup, sorted⟩, fun sample => ⟨fun listed => ⟨listed, ?_⟩, And.left⟩⟩
      rcases List.mem_cons.mp listed with rfl | behind
      · exact Int.not_lt.mp young
      · exact (Int.not_lt.mp young).trans (earliest sample behind)

theorem Orderly.pushBack {now : Time} {eventId : PredicateEventId}
    (new : eventId ∉ bucket.dedupIds) (last : ∀ sample ∈ bucket.entries, sample.time ≤ now) :
    (bucket.pushBack now eventId).Orderly := by
  obtain ⟨ids, nodup, sorted⟩ := orderly
  rw [ids, List.mem_toFinset] at new
  refine ⟨?_, ?_, ?_⟩
  · ext id
    simp [InvocationBucket.pushBack, ids]
  · simpa [InvocationBucket.pushBack, List.nodup_append, nodup] using new
  · simpa [InvocationBucket.pushBack, List.pairwise_append, sorted] using last

end InvocationBucket

/-! ## Calls on one key -/

/-- An `InvocationCount` bound lets a call through up to its maximum; a failure of the backend
refuses it. -/
def RecordResult.admitted (max : Nat) : RecordResult Nat → Bool
  | .ok count => count ≤ max
  | .windowOverflow _ _ | .panicked => false

/-- A call on the key and its answer; `repeated` says that a sample in the window had its id. -/
structure InvocationCall where
  id : PredicateEventId
  time : Time
  repeated : Bool
  answer : RecordResult Nat

inductive InvocationLabel where
  | call (id : PredicateEventId) (now : Time)
  /-- Calls on other keys, up to the given state. -/
  | elsewhere (after : PredicateState)

/-- The bucket of a key; one that is missing is made empty. -/
def PredicateState.bucketOf (state : PredicateState) (key : InvocationKey) : InvocationBucket :=
  (state.invocationHistory.get key).getD .default

namespace InvocationCall

/-- The ids of the calls within a window of the given length that pass a test. -/
def idsWithin (calls : List InvocationCall) (start : Time) (window : Nat)
    (test : InvocationCall → Bool) : Finset PredicateEventId :=
  ((calls.filter fun call => start ≤ call.time ∧ call.time ≤ start + window ∧ test call).map
    InvocationCall.id).toFinset

def sample (call : InvocationCall) : InvocationSample := ⟨call.time, call.id⟩

/-- An admitted call that recorded its id. -/
def records (max : Nat) (call : InvocationCall) : Bool := !call.repeated && call.answer.admitted max

end InvocationCall

open InvocationCall (idsWithin records)

structure Counted (max window : Nat) (bucket : InvocationBucket) (calls : List InvocationCall) :
    Prop where
  orderly : bucket.Orderly
  past : ∀ sample ∈ bucket.entries, ∃ call ∈ calls, sample.time ≤ call.time
  kept : ∀ call ∈ calls, call.records max = true →
    (∀ other ∈ calls, other.time - window ≤ call.time) → call.sample ∈ bucket.entries
  capped : ∀ start, (idsWithin calls start window (records max)).card ≤ max

namespace Counted

variable {max window : Nat} {bucket after : InvocationBucket} {calls : List InvocationCall}
  (counted : Counted max window bucket calls)
include counted

/-- The recorded ids of a window that ends no earlier than the call are among the samples. -/
theorem extend (orderly : after.Orderly) {call : InvocationCall}
    (last : ∀ earlier ∈ calls, earlier.time ≤ call.time)
    (past : ∀ sample ∈ after.entries, sample ∈ bucket.entries ∨ sample.time ≤ call.time)
    (held : ∀ sample ∈ bucket.entries, call.time - window ≤ sample.time → sample ∈ after.entries)
    (recorded : call.records max = true →
      call.sample ∈ after.entries ∧ after.entries.length ≤ max) :
    Counted max window after (calls ++ [call]) := by
  have kept : ∀ other ∈ calls ++ [call], other.records max = true →
      call.time - window ≤ other.time → other.sample ∈ after.entries := by
    intro other listed records young
    rcases List.mem_append.mp listed with earlier | same
    · refine held _ (counted.kept other earlier records fun third member => ?_) young
      exact (Int.sub_le_sub_right (last third member) _).trans young
    · cases List.mem_singleton.mp same
      exact (recorded records).1
  refine ⟨orderly, fun sample listed => ?_, fun other listed records young =>
    kept other listed records (young call (by simp)), fun start => ?_⟩
  · rcases past sample listed with earlier | late
    · obtain ⟨other, member, bound⟩ := counted.past sample earlier
      exact ⟨other, List.mem_append_left _ member, bound⟩
    · exact ⟨call, by simp, late⟩
  · by_cases inside : (start ≤ call.time ∧ call.time ≤ start + window) ∧ call.records max = true
    · obtain ⟨⟨_, ends⟩, counts⟩ := inside
      have within : idsWithin (calls ++ [call]) start window (records max) ⊆
          (after.entries.map InvocationSample.id).toFinset := by
        intro id listed
        simp only [idsWithin, List.mem_toFinset, List.mem_map, List.mem_filter,
          decide_eq_true_eq] at listed ⊢
        obtain ⟨other, ⟨member, begins, _, records⟩, rfl⟩ := listed
        exact ⟨_, kept other member records ((Int.sub_right_le_of_le_add ends).trans begins), rfl⟩
      calc (idsWithin (calls ++ [call]) start window (records max)).card
          ≤ (after.entries.map InvocationSample.id).toFinset.card := Finset.card_le_card within
        _ ≤ after.entries.length := (List.toFinset_card_le _).trans_eq (List.length_map _)
        _ ≤ max := (recorded counts).2
    · have same : idsWithin (calls ++ [call]) start window (records max) =
          idsWithin calls start window (records max) := by
        rw [and_assoc] at inside
        simp [idsWithin, List.filter_append, inside]
      rw [same]
      exact counted.capped start

theorem record (key : InvocationKey) (id : PredicateEventId) {now : Time}
    (last : ∀ earlier ∈ calls, earlier.time ≤ now)
    (subtracts : windowCutoff now window = now - window) :
    let done := recordInto key id now window bucket
    Counted max window done.2
      (calls ++ [⟨id, now, id ∈ (bucket.trim (windowCutoff now window)).dedupIds, done.1⟩]) := by
  obtain ⟨tidy, members⟩ := counted.orderly.trim (windowCutoff now window)
  rw [subtracts] at tidy members ⊢
  unfold recordInto
  rw [subtracts]
  dsimp only
  generalize bucket.trim (now - window) = trimmed at tidy members ⊢
  split
  next known =>
    refine counted.extend tidy last (fun _ listed => .inl ((members _).mp listed).1)
      (fun _ listed young => (members _).mpr ⟨listed, young⟩) fun records => ?_
    simp [InvocationCall.records, known] at records
  next new =>
    split
    · refine counted.extend tidy last (fun _ listed => .inl ((members _).mp listed).1)
        (fun _ listed young => (members _).mpr ⟨listed, young⟩) fun records => ?_
      simp [InvocationCall.records, admitted] at records
    · refine counted.extend (tidy.pushBack new fun sample listed => ?_) last
        (fun sample listed => ?_)
        (fun _ listed young => List.mem_append_left _ ((members _).mpr ⟨listed, young⟩))
        fun records => ⟨List.mem_append_right _ (List.mem_singleton.mpr rfl), ?_⟩
      · obtain ⟨call, earlier, bound⟩ := counted.past sample ((members sample).mp listed).1
        exact bound.trans (last call earlier)
      · rcases List.mem_append.mp listed with kept | same
        · exact .inl ((members sample).mp kept).1
        · exact .inr (by simp [List.mem_singleton.mp same])
      · simpa [InvocationCall.records, admitted, new] using records

end Counted

section

variable [LinearOrder InvocationKey] [LinearOrder ValueKey] (key : InvocationKey)

def nextInvocation (window : Nat) (state : PredicateState × List InvocationCall) :
    InvocationLabel → PredicateState × List InvocationCall
  | .call id now =>
    let trimmed := (state.1.bucketOf key).trim (windowCutoff now window)
    let done := state.1.recordInvocation key id now window
    (done.2, state.2 ++ [⟨id, now, id ∈ trimmed.dedupIds, done.1⟩])
  | .elsewhere after => (after, state.2)

def invocationRuns (window : Nat) : System (PredicateState × List InvocationCall) InvocationLabel :=
  .ofFunction (fun state => state.1.invocationHistory.get key = none ∧ state.2 = [])
    (nextInvocation key window)

/-- The times of the calls do not decrease, the window can be subtracted from them, and the
key is never evicted. -/
def InOrder (window : Nat) (state : PredicateState × List InvocationCall) : InvocationLabel → Prop
  | .call _ now =>
    (∀ earlier ∈ state.2, earlier.time ≤ now) ∧ windowCutoff now window = now - window
  | .elsewhere after => after.invocationHistory.get key = state.1.invocationHistory.get key

namespace PredicateState

variable (state : PredicateState) (key : InvocationKey)

theorem bucketOf_makeRoom :
    (state.makeRoomForInvocation key).bucketOf key = state.bucketOf key := by
  cases found : state.invocationHistory.get key with
  | some =>
    have present : state.invocationHistory.containsKey key = true := by
      rw [containsKey, found]
      rfl
    rw [makeRoomForInvocation, makeRoom, if_pos present]
  | none =>
    have absent : (state.makeRoomForInvocation key).invocationHistory.get key = none := by
      have within := (state.makeRoomForInvocation_within key).invocations
      by_contra present
      have listed := within (mem_keys.mpr (Option.isSome_iff_ne_none.mpr present))
      rw [mem_keys, found] at listed
      cases listed
    rw [bucketOf, bucketOf, absent, found]

theorem recordInvocation_bucketOf (id : PredicateEventId) (now : Time) (window : Nat) :
    let done := recordInto key id now window (state.bucketOf key)
    (state.recordInvocation key id now window).1 = done.1 ∧
      (done.2.Orderly → (state.recordInvocation key id now window).2.bucketOf key = done.2) := by
  have room := state.bucketOf_makeRoom key
  unfold recordInvocation
  dsimp only
  rw [show (get (makeRoomForInvocation _ _).invocationHistory key).getD _ = _ from room]
  generalize recordInto key id now window (state.bucketOf key) = done
  refine ⟨rfl, fun orderly => ?_⟩
  unfold bucketOf settle
  split
  next empty =>
    obtain ⟨_, _, _⟩ := done
    cases List.isEmpty_iff.mp empty
    rw [get_remove_self]
    exact (congrArg (InvocationBucket.mk []) orderly.ids).symm
  · rw [get_insert_self]
    rfl

end PredicateState

/-- The ids that admitted calls record within one window are at most as many as the bound
allows, and a call with an id in the window does not raise the count. -/
theorem invocationRuns.recorded_within_max {key : InvocationKey} {window : Nat} (max : Nat)
    {state : PredicateState × List InvocationCall}
    (reached : (invocationRuns key window).Reachable (InOrder key window) state) :
    (∀ start, (idsWithin state.2 start window (records max)).card ≤ max) ∧
      ∀ id now, (∃ sample ∈ (state.1.bucketOf key).entries,
          sample.id = id ∧ windowCutoff now window ≤ sample.time) →
        ∃ count ≤ (state.1.bucketOf key).entries.length,
          (state.1.recordInvocation key id now window).1 = .ok count ∧
            ((state.1.recordInvocation key id now window).2.bucketOf key).entries.length =
              count := by
  have counted : Counted max window (state.1.bucketOf key) state.2 := by
    refine reached.invariant (fun state => Counted max window (state.1.bucketOf key) state.2) ?_ ?_
    · rintro ⟨start, _⟩ ⟨absent, rfl⟩
      rw [show start.bucketOf key = .default by rw [bucketOf, absent]; rfl]
      exact ⟨InvocationBucket.orderly_default, nofun, nofun, fun _ => Nat.zero_le _⟩
    · rintro ⟨before, calls⟩ (⟨id, now⟩ | other) _ counted allowed rfl
      · have counted := counted.record key id allowed.1 allowed.2
        obtain ⟨answer, bucket⟩ := before.recordInvocation_bucketOf key id now window
        rw [nextInvocation, bucket counted.orderly, answer]
        exact counted
      · rw [show (nextInvocation _ _ _ _).1.bucketOf key = before.bucketOf key from
          congrArg (·.getD .default) allowed]
        exact counted
  refine ⟨counted.capped, fun id now ⟨sample, listed, same, young⟩ => ?_⟩
  obtain ⟨tidy, members⟩ := counted.orderly.trim (windowCutoff now window)
  obtain ⟨answer, bucket⟩ := state.1.recordInvocation_bucketOf key id now window
  have known : id ∈ ((state.1.bucketOf key).trim (windowCutoff now window)).dedupIds := by
    rw [tidy.ids, List.mem_toFinset, List.mem_map]
    exact ⟨sample, (members sample).mpr ⟨listed, young⟩, same⟩
  simp only [recordInto, if_pos known] at answer bucket
  rw [answer, bucket tidy]
  refine ⟨_, ?_, rfl, rfl⟩
  have distinct := List.Nodup.of_map _ tidy.nodup
  exact (distinct.subperm fun other kept => ((members other).mp kept).1).length_le

end

/-! ## An id that comes back -/

namespace invocationRuns

def sendKey : InvocationKey := ⟨⟨1⟩, ⟨"tenant"⟩, "wallet.send"⟩

/-- Calls with a window of ten from the empty state. -/
def sent (calls : List (String × Time)) : PredicateState × List InvocationCall :=
  (calls.map fun call => .call ⟨call.1⟩ call.2).foldl (nextInvocation sendKey 10) (.new, [])

instance (id : PredicateEventId) (now : Time) (state : PredicateState × List InvocationCall) :
    Decidable (InOrder sendKey 10 state (.call id now)) :=
  inferInstanceAs (Decidable (_ ∧ _))

theorem started : (invocationRuns sendKey 10).Reachable (InOrder sendKey 10) (.new, []) :=
  .start ⟨rfl, rfl⟩

/-- Three ids come within one window, and the third is refused. -/
theorem third_id_refused : let state := sent [("a", 0), ("b", 5), ("c", 10)]
    state.2.map (·.answer.admitted 2) = [true, true, false] ∧
      (idsWithin state.2 0 10 (records 2)).card ≤ 2 := by
  have reached := started.followAllowed [.call ⟨"a"⟩ 0, .call ⟨"b"⟩ 5, .call ⟨"c"⟩ 10]
    ⟨by decide +kernel, by decide +kernel, by decide +kernel, trivial⟩
  exact ⟨by decide +kernel, (recorded_within_max 2 reached).1 0⟩

/-- An id comes back at the end of its window and two more follow, so three are admitted
within one window where the bound is two. -/
theorem returning_id_admitted : let state := sent [("a", 0), ("a", 10), ("b", 11), ("c", 12)]
    (invocationRuns sendKey 10).Reachable (InOrder sendKey 10) state ∧
      (idsWithin state.2 10 10 (·.answer.admitted 2)).card = 3 :=
  ⟨started.followAllowed [.call ⟨"a"⟩ 0, .call ⟨"a"⟩ 10, .call ⟨"b"⟩ 11, .call ⟨"c"⟩ 12]
    ⟨by decide +kernel, by decide +kernel, by decide +kernel, by decide +kernel, trivial⟩,
    by decide +kernel⟩

end invocationRuns

end Ironclaw.Hooks
