import Ironclaw.Hooks.Registry
import Ironclaw.Lib.Numbers
import Ironclaw.Lib.Owned

/-!
# The sliding windows of the predicates

The in-memory backend keeps, for every key, the samples that are still inside the window, and
for a sum also the running total.  A tenant may hold a bounded number of keys over both maps;
at the bound its own oldest bucket makes room.  An overflow of the decimal arithmetic is a
panic: the call returns nothing and leaves behind what it had changed so far.
-/

namespace Ironclaw.Hooks

open HostApi Lib

/-! ## Time -/

/-- Nanoseconds since the epoch. -/
abbrev Time : Type := Int

/-- The earliest time that the clock type can hold. -/
def minTime : Time := -8334601228800 * 10 ^ 9

/-- The longest duration of the clock library, in nanoseconds. -/
def maxTimeDelta : Nat := (2 ^ 63 - 1) * 10 ^ 6

/-- A window that cannot be subtracted leaves only the present. -/
def windowCutoff (now : Time) (window : Nat) : Time :=
  if window ≤ maxTimeDelta ∧ minTime ≤ now - window then now - window else now

/-! ## Keys and buckets -/

structure InvocationKey where
  hookId : HookId
  tenantId : TenantId
  capability : String
  deriving DecidableEq

structure ValueKey where
  hookId : HookId
  tenantId : TenantId
  capability : String
  field : String
  deriving DecidableEq

structure PredicateEventId where
  text : String
  deriving DecidableEq

structure InvocationSample where
  time : Time
  id : PredicateEventId

structure InvocationBucket where
  entries : List InvocationSample
  dedupIds : Finset PredicateEventId

namespace InvocationBucket

def default : InvocationBucket := ⟨[], ∅⟩

/-- The loop of `pop_front` over the samples before the cutoff. -/
def dropBefore (cutoff : Time) : List InvocationSample → Finset PredicateEventId → InvocationBucket
  | [], ids => ⟨[], ids⟩
  | sample :: rest, ids =>
    if sample.time < cutoff then dropBefore cutoff rest (ids.erase sample.id)
    else ⟨sample :: rest, ids⟩

def trim (cutoff : Time) (bucket : InvocationBucket) : InvocationBucket :=
  dropBefore cutoff bucket.entries bucket.dedupIds

def pushBack (bucket : InvocationBucket) (now : Time) (eventId : PredicateEventId) :
    InvocationBucket :=
  ⟨bucket.entries ++ [⟨now, eventId⟩], insert eventId bucket.dedupIds⟩

end InvocationBucket

structure ValueSample where
  time : Time
  value : Decimal
  id : PredicateEventId

structure ValueBucket where
  entries : List ValueSample
  dedupIds : Finset PredicateEventId
  runningSum : Decimal

namespace ValueBucket

def default : ValueBucket := ⟨[], ∅, .zero⟩

/-- The loop of `pop_front` over the samples before the cutoff.  The sum is changed last, so
an overflow leaves it as it was, without the sample. -/
def dropBefore (cutoff : Time) :
    List ValueSample → Finset PredicateEventId → Decimal → Except ValueBucket ValueBucket
  | [], ids, sum => .ok ⟨[], ids, sum⟩
  | sample :: rest, ids, sum =>
    if sample.time < cutoff then
      match sum.checkedSub sample.value with
      | some less => dropBefore cutoff rest (ids.erase sample.id) less
      | none => .error ⟨rest, ids.erase sample.id, sum⟩
    else .ok ⟨sample :: rest, ids, sum⟩

/-- The trimmed bucket, or the one that an overflow leaves behind. -/
def trim (cutoff : Time) (bucket : ValueBucket) : Except ValueBucket ValueBucket :=
  dropBefore cutoff bucket.entries bucket.dedupIds bucket.runningSum

/-- The sum is changed between the id and the sample. -/
def pushBack (bucket : ValueBucket) (now : Time) (value : Decimal)
    (eventId : PredicateEventId) : Except ValueBucket ValueBucket :=
  match bucket.runningSum.checkedAdd value with
  | some sum => .ok ⟨bucket.entries ++ [⟨now, value, eventId⟩], insert eventId bucket.dedupIds, sum⟩
  | none => .error { bucket with dedupIds := insert eventId bucket.dedupIds }

end ValueBucket

/-! ## The backend -/

structure PredicateState where
  invocationHistory : Table InvocationKey InvocationBucket
  valueHistory : Table ValueKey ValueBucket
  evictions : Nat

inductive RecordResult (α : Type) where
  | ok (answer : α)
  | windowOverflow (key : String) (cap : Nat)
  | panicked
  deriving DecidableEq

def maxHistoryKeys : Nat := 8192

def maxKeysPerTenant : Nat := maxHistoryKeys / 4

def maxSamplesPerKey : Nat := 4096

/-- The age of a bucket is the time of its oldest sample; one without samples is the oldest. -/
def invocationFront (bucket : Option InvocationBucket) : WithBot Time :=
  bucket.bind fun bucket => bucket.entries.head?.map (·.time)

def valueFront (bucket : Option ValueBucket) : WithBot Time :=
  bucket.bind fun bucket => bucket.entries.head?.map (·.time)

def settle {κ ν : Type} [DecidableEq κ] (empty : Bool) (key : κ) (bucket : ν)
    (history : Table κ ν) : Table κ ν :=
  if empty then history.remove key else history.insert key bucket

namespace PredicateState

def new : PredicateState := ⟨.empty, .empty, 0⟩

def countEviction (state : PredicateState) : PredicateState :=
  { state with evictions := (state.evictions + 1) % 2 ^ 64 }

def invocationKeysOf (state : PredicateState) (tenant : TenantId) : Finset InvocationKey :=
  state.invocationHistory.keysOf InvocationKey.tenantId tenant

def valueKeysOf (state : PredicateState) (tenant : TenantId) : Finset ValueKey :=
  state.valueHistory.keysOf ValueKey.tenantId tenant

def tenantKeyCount (state : PredicateState) (tenant : TenantId) : Nat :=
  (state.invocationKeysOf tenant).card + (state.valueKeysOf tenant).card

def removeInvocation (state : PredicateState) (key : InvocationKey) : PredicateState :=
  { state with invocationHistory := state.invocationHistory.remove key }

def removeValue (state : PredicateState) (key : ValueKey) : PredicateState :=
  { state with valueHistory := state.valueHistory.remove key }

/-- Make room for a key that is not there yet: at its own bound the tenant gives up a bucket,
at the bound of the map anybody does. -/
def makeRoom (present full : Bool) (evictTenant evictAny : PredicateState → PredicateState)
    (tenant : TenantId) (state : PredicateState) : PredicateState :=
  if present then state
  else if maxKeysPerTenant ≤ state.tenantKeyCount tenant then evictTenant state
  else if full then evictAny state
  else state

/-- An empty bucket is as old as any; the order of the others is that of the integers. -/
instance : LE (WithBot Time) := WithBot.instLE

instance : DecidableLE (WithBot Time) := WithBot.decidableLE

section

-- The fixed order in which the maps are iterated; it decides between equally old buckets.
variable [LinearOrder InvocationKey] [LinearOrder ValueKey]

def evictLruInvocation (state : PredicateState) : PredicateState :=
  let history := state.invocationHistory
  match history.lowest invocationFront history.keys with
  | some victim => (state.removeInvocation (ofLex victim).2).countEviction
  | none => state

def evictLruValue (state : PredicateState) : PredicateState :=
  let history := state.valueHistory
  match history.lowest valueFront history.keys with
  | some victim => (state.removeValue (ofLex victim).2).countEviction
  | none => state

def lruInvocationCandidateForTenant (state : PredicateState) (tenant : TenantId) :
    Option (WithBot Time ×ₗ InvocationKey) :=
  state.invocationHistory.lowest invocationFront (state.invocationKeysOf tenant)

def lruValueCandidateForTenant (state : PredicateState) (tenant : TenantId) :
    Option (WithBot Time ×ₗ ValueKey) :=
  state.valueHistory.lowest valueFront (state.valueKeysOf tenant)

def evictLruForTenant (tenant : TenantId) (state : PredicateState) : PredicateState :=
  match state.lruInvocationCandidateForTenant tenant, state.lruValueCandidateForTenant tenant with
  | some invocation, some value =>
    if (ofLex invocation).1 ≤ (ofLex value).1 then
      (state.removeInvocation (ofLex invocation).2).countEviction
    else (state.removeValue (ofLex value).2).countEviction
  | some invocation, none => (state.removeInvocation (ofLex invocation).2).countEviction
  | none, some value => (state.removeValue (ofLex value).2).countEviction
  | none, none => state

/-! ## Recording -/

variable (key : InvocationKey)

def makeRoomForInvocation (state : PredicateState) : PredicateState :=
  state.makeRoom (state.invocationHistory.containsKey key)
    (maxHistoryKeys ≤ state.invocationHistory.keys.card)
    (evictLruForTenant key.tenantId) evictLruInvocation key.tenantId

def makeRoomForValue (key : ValueKey) (state : PredicateState) : PredicateState :=
  state.makeRoom (state.valueHistory.containsKey key)
    (maxHistoryKeys ≤ state.valueHistory.keys.card)
    (evictLruForTenant key.tenantId) evictLruValue key.tenantId

def recordInto (eventId : PredicateEventId) (now : Time) (window : Nat)
    (bucket : InvocationBucket) : RecordResult Nat × InvocationBucket :=
  let trimmed := bucket.trim (windowCutoff now window)
  if eventId ∈ trimmed.dedupIds then (.ok trimmed.entries.length, trimmed)
  else if maxSamplesPerKey ≤ trimmed.entries.length then
    (.windowOverflow (key.tenantId.value ++ "/" ++ key.capability) maxSamplesPerKey, trimmed)
  else
    let grown := trimmed.pushBack now eventId
    (.ok grown.entries.length, grown)

def recordInvocation (eventId : PredicateEventId) (now : Time)
    (window : Nat) (state : PredicateState) : RecordResult Nat × PredicateState :=
  let room := state.makeRoomForInvocation key
  let (result, bucket) := recordInto key eventId now window
    ((room.invocationHistory.get key).getD .default)
  (result, { room with
    invocationHistory := settle bucket.entries.isEmpty key bucket room.invocationHistory })

/-- The call on the bucket of its key; an overflow ends it where it stands. -/
def recordValueInto (key : ValueKey) (eventId : PredicateEventId) (now : Time) (value : Decimal)
    (window : Nat) (bucket : ValueBucket) :
    Except ValueBucket (RecordResult Decimal × ValueBucket) := do
  let trimmed ← bucket.trim (windowCutoff now window)
  if eventId ∈ trimmed.dedupIds then return (.ok trimmed.runningSum, trimmed)
  else if maxSamplesPerKey ≤ trimmed.entries.length then
    return (.windowOverflow (key.tenantId.value ++ "/" ++ key.capability ++ "#" ++ key.field)
      maxSamplesPerKey, trimmed)
  else
    let grown ← trimmed.pushBack now value eventId
    return (.ok grown.runningSum, grown)

def recordValue (key : ValueKey) (eventId : PredicateEventId) (now : Time) (value : Decimal)
    (window : Nat) (state : PredicateState) : RecordResult Decimal × PredicateState :=
  let room := state.makeRoomForValue key
  match recordValueInto key eventId now value window
      ((room.valueHistory.get key).getD .default) with
  | .ok (result, bucket) =>
    (result, { room with
      valueHistory := settle bucket.entries.isEmpty key bucket room.valueHistory })
  | .error left => (.panicked, { room with valueHistory := room.valueHistory.insert key left })

/-! ## The reaper -/

variable (cutoff : Time)

def keepInvocation (bucket : InvocationBucket) : Option InvocationBucket :=
  let trimmed := bucket.trim cutoff
  if trimmed.entries.isEmpty then none else some trimmed

def keepValue (bucket : ValueBucket) : Option ValueBucket :=
  match bucket.trim cutoff with
  | .ok trimmed => if trimmed.entries.isEmpty then none else some trimmed
  | .error left => some left

/-- The first bucket, in the order of the map, whose sum overflows. -/
def firstOverflow (state : PredicateState) : Option ValueKey :=
  least (state.valueHistory.keys.filter fun key =>
    ((state.valueHistory.get key).any fun bucket => !(bucket.trim cutoff).isOk))

/-- The samples that a sweep without an overflow drops. -/
def droppedBefore (state : PredicateState) : Nat :=
  (∑ key ∈ state.invocationHistory.keys, (state.invocationHistory.get key).elim 0 fun bucket =>
    bucket.entries.length - (bucket.trim cutoff).entries.length) +
  ∑ key ∈ state.valueHistory.keys, (state.valueHistory.get key).elim 0 fun bucket =>
    bucket.entries.length - (bucket.trim cutoff).toOption.elim 0 (·.entries.length)

/-- `evict_older_than`: the sweep over the values ends at the first overflow. -/
def evictOlderThan (state : PredicateState) : RecordResult Nat × PredicateState :=
  let stopped := state.firstOverflow cutoff
  (if stopped.isSome then .panicked else .ok (state.droppedBefore cutoff), { state with
      invocationHistory := state.invocationHistory.filterMap fun _ => keepInvocation cutoff
      valueHistory := state.valueHistory.filterMap fun key bucket =>
        if stopped.any (· < key) then some bucket else keepValue cutoff bucket })

end

end PredicateState

end Ironclaw.Hooks
