import Mathlib.Data.Char
import Ironclaw.Hooks.PredicateState
import Ironclaw.Lib.System

/-!
# Tenants on one predicate backend

The keys of a tenant never exceed its quota, and with few tenants the bound of the whole map
is out of reach, so that room is only ever made among the keys of the caller.  Then what a
tenant is answered depends on its own buckets alone.  The reaper sweeps the buckets of all
tenants; a sweep that is cut short is the one way in which they meet.
-/

namespace Ironclaw.Hooks

open HostApi Lib Table Table.AgreeOn InvocationKey LinearOrder Finset

/-! ## Calls -/

inductive PredicateOp where
  | recordInvocation (key : InvocationKey) (eventId : PredicateEventId) (now : Time) (window : Nat)
  | recordValue (key : ValueKey) (eventId : PredicateEventId) (now : Time) (value : Decimal)
      (window : Nat)
  | evictOlderThan (cutoff : Time)

inductive PredicateAnswer where
  | count (result : RecordResult Nat)
  | sum (result : RecordResult Decimal)
  | dropped (result : RecordResult Nat)
  deriving DecidableEq

/-- The tenant whose call it is; the reaper belongs to nobody. -/
def PredicateOp.tenant : PredicateOp → Option TenantId
  | .recordInvocation key _ _ _ => some key.tenantId
  | .recordValue key _ _ _ _ => some key.tenantId
  | .evictOlderThan _ => none

/-- The calls that stay when those of all other tenants are removed. -/
def PredicateOp.concerns (tenant : TenantId) (op : PredicateOp) : Bool := op.tenant.all (· = tenant)

/-! ## One bucket put back -/

section

variable {κ ν : Type} [DecidableEq κ] {empty : Bool} {key : κ} {bucket : ν}
variable {history : Table κ ν}

theorem keys_settle_subset : (settle empty key bucket history).keys ⊆ insert key history.keys := by
  unfold settle
  split
  · exact (history.keys_remove_subset key).trans (subset_insert _ _)
  · exact (history.keys_insert key bucket).subset

variable {ω : Type} {mine : ω} {owner : κ → ω}

theorem settle_agree {other : Table κ ν} (agree : Table.AgreeOn owner mine history other) :
    Table.AgreeOn owner mine (settle empty key bucket history)
      (settle empty key bucket other) := by
  unfold settle
  split
  · exact agree.remove key
  · exact agree.insert key bucket

theorem settle_other (others : owner key ≠ mine) :
    Table.AgreeOn owner mine (settle empty key bucket history) history := by
  unfold settle
  split
  · exact remove_other history others
  · exact insert_other history bucket others

theorem card_keysOf_settle_le [DecidableEq ω] (mine : ω) :
    ((settle empty key bucket history).keysOf owner mine).card ≤
      (history.keysOf owner mine).card + 1 := by
  unfold settle
  split
  · refine (card_le_card (keysOf_mono ?_ mine)).trans (Nat.le_succ _)
    exact history.keys_remove_subset key
  · exact history.card_keysOf_insert_le key bucket mine

theorem card_keysOf_settle_of_mem [DecidableEq ω] (present : key ∈ history.keys) (mine : ω) :
    ((settle empty key bucket history).keysOf owner mine).card ≤
      (history.keysOf owner mine).card := by
  refine card_le_card (keysOf_mono (keys_settle_subset.trans ?_) mine)
  rw [insert_eq_of_mem present]

end

/-! ## Agreement on one tenant -/

structure PredicateState.Agree (tenant : TenantId) (first second : PredicateState) : Prop where
  invocations : Table.AgreeOn tenantId tenant first.invocationHistory
    second.invocationHistory
  values : Table.AgreeOn ValueKey.tenantId tenant first.valueHistory second.valueHistory

namespace PredicateState

variable {tenant : TenantId} {first second state : PredicateState}

theorem Agree.refl (tenant : TenantId) (state : PredicateState) : state.Agree tenant state :=
  ⟨.refl _ _, .refl _ _⟩

theorem Agree.trans {third : PredicateState} (left : first.Agree tenant second)
    (right : second.Agree tenant third) : first.Agree tenant third :=
  ⟨left.invocations.trans right.invocations, left.values.trans right.values⟩

theorem Agree.tenantKeyCount_eq (agree : first.Agree tenant second) :
    first.tenantKeyCount tenant = second.tenantKeyCount tenant := by
  rw [tenantKeyCount, tenantKeyCount, invocationKeysOf, invocationKeysOf, valueKeysOf,
    valueKeysOf, agree.invocations.keysOf_eq, agree.values.keysOf_eq]

theorem Agree.removeInvocation (agree : first.Agree tenant second) (key : InvocationKey) :
    ((first.removeInvocation key).countEviction).Agree tenant
      ((second.removeInvocation key).countEviction) :=
  ⟨agree.invocations.remove key, agree.values⟩

theorem Agree.removeValue (agree : first.Agree tenant second) (key : ValueKey) :
    ((first.removeValue key).countEviction).Agree tenant
      ((second.removeValue key).countEviction) :=
  ⟨agree.invocations, agree.values.remove key⟩

section

variable [LinearOrder InvocationKey] [LinearOrder ValueKey]

theorem evictLruForTenant_cases (tenant : TenantId) (state : PredicateState) :
    (∃ key ∈ state.invocationKeysOf tenant,
        state.evictLruForTenant tenant = (state.removeInvocation key).countEviction) ∨
      (∃ key ∈ state.valueKeysOf tenant,
        state.evictLruForTenant tenant = (state.removeValue key).countEviction) ∨
      state.tenantKeyCount tenant = 0 ∧ state.evictLruForTenant tenant = state := by
  unfold evictLruForTenant
  split
  next invocation value oldestInvocation oldestValue =>
    split
    · exact .inl ⟨_, mem_of_lowest oldestInvocation, rfl⟩
    · exact .inr (.inl ⟨_, mem_of_lowest oldestValue, rfl⟩)
  next invocation oldestInvocation _ => exact .inl ⟨_, mem_of_lowest oldestInvocation, rfl⟩
  next value _ oldestValue => exact .inr (.inl ⟨_, mem_of_lowest oldestValue, rfl⟩)
  next noInvocation noValue =>
    refine .inr (.inr ⟨?_, rfl⟩)
    have noInvocations := eq_empty_of_lowest noInvocation
    have noValues := eq_empty_of_lowest noValue
    rw [tenantKeyCount, noInvocations, noValues]
    rfl

theorem Agree.evictLruForTenant (agree : first.Agree tenant second) :
    (first.evictLruForTenant tenant).Agree tenant (second.evictLruForTenant tenant) := by
  have sameInvocation : first.lruInvocationCandidateForTenant tenant =
      second.lruInvocationCandidateForTenant tenant := agree.invocations.lowest_eq
  have sameValue : first.lruValueCandidateForTenant tenant =
      second.lruValueCandidateForTenant tenant := agree.values.lowest_eq
  unfold PredicateState.evictLruForTenant
  rw [sameInvocation, sameValue]
  split
  · split
    · exact agree.removeInvocation _
    · exact agree.removeValue _
  · exact agree.removeInvocation _
  · exact agree.removeValue _
  · exact agree

theorem evictLruForTenant_other {other : TenantId} (different : tenant ≠ other)
    (state : PredicateState) : (state.evictLruForTenant tenant).Agree other state := by
  rcases state.evictLruForTenant_cases tenant with ⟨key, mine, evicted⟩ | ⟨key, mine, evicted⟩ |
    ⟨_, same⟩
  · rw [evicted]
    have others : key.tenantId ≠ other := (mem_keysOf.mp mine).2 ▸ different
    exact ⟨remove_other _ others, .refl _ _⟩
  · rw [evicted]
    have others : key.tenantId ≠ other := (mem_keysOf.mp mine).2 ▸ different
    exact ⟨.refl _ _, remove_other _ others⟩
  · rw [same]
    exact .refl _ _

/-! ## The quota -/

end

structure KeysWithin (after before : PredicateState) : Prop where
  invocations : after.invocationHistory.keys ⊆ before.invocationHistory.keys
  values : after.valueHistory.keys ⊆ before.valueHistory.keys

theorem KeysWithin.refl (state : PredicateState) : state.KeysWithin state :=
  ⟨Finset.Subset.refl _, Finset.Subset.refl _⟩

theorem KeysWithin.tenantKeyCount_le {after before : PredicateState}
    (within : after.KeysWithin before) (tenant : TenantId) :
    after.tenantKeyCount tenant ≤ before.tenantKeyCount tenant :=
  Nat.add_le_add (card_le_card (keysOf_mono within.invocations tenant))
    (card_le_card (keysOf_mono within.values tenant))

theorem removeInvocation_within (state : PredicateState) (key : InvocationKey) :
    ((state.removeInvocation key).countEviction).KeysWithin state :=
  ⟨state.invocationHistory.keys_remove_subset key, Finset.Subset.refl _⟩

theorem removeValue_within (state : PredicateState) (key : ValueKey) :
    ((state.removeValue key).countEviction).KeysWithin state :=
  ⟨Finset.Subset.refl _, state.valueHistory.keys_remove_subset key⟩

def Quota (state : PredicateState) : Prop :=
  ∀ tenant, state.tenantKeyCount tenant ≤ maxKeysPerTenant

theorem Quota.of_within {after before : PredicateState} (quota : before.Quota)
    (within : after.KeysWithin before) : after.Quota :=
  fun tenant => (within.tenantKeyCount_le tenant).trans (quota tenant)

variable {empty : Bool} {present full : Bool} {tenants : Finset TenantId}
    {evictTenant evictAny : PredicateState → PredicateState}

theorem makeRoom_within (tenantWithin : (evictTenant state).KeysWithin state)
    (anyWithin : (evictAny state).KeysWithin state) :
    (state.makeRoom present full evictTenant evictAny tenant).KeysWithin state := by
  fun_cases makeRoom <;> first | exact .refl state | assumption

/-- Far from the bound of the map only the bound of the tenant counts. -/
theorem makeRoom_of_space (space : state.tenantKeyCount tenant < maxKeysPerTenant → full = false) :
    state.makeRoom present full evictTenant evictAny tenant = if present then state
      else if maxKeysPerTenant ≤ state.tenantKeyCount tenant then evictTenant state
      else state := by
  unfold makeRoom
  split
  · rfl
  split
  · rfl
  next below =>
    rw [space (Nat.not_le.mp below)]
    rfl

theorem evictLruInvocation_within [LinearOrder InvocationKey] (state : PredicateState) :
    state.evictLruInvocation.KeysWithin state := by
  simp only [evictLruInvocation]
  split
  · exact state.removeInvocation_within _
  · exact .refl state

theorem evictLruValue_within [LinearOrder ValueKey] (state : PredicateState) :
    state.evictLruValue.KeysWithin state := by
  simp only [evictLruValue]
  split
  · exact state.removeValue_within _
  · exact .refl state

theorem evictOlderThan_within [LinearOrder ValueKey] (cutoff : Time) (state : PredicateState) :
    (state.evictOlderThan cutoff).2.KeysWithin state :=
  ⟨state.invocationHistory.keys_filterMap_subset _, state.valueHistory.keys_filterMap_subset _⟩

section

variable [LinearOrder InvocationKey] [LinearOrder ValueKey]

theorem evictLruForTenant_within (tenant : TenantId) (state : PredicateState) :
    (state.evictLruForTenant tenant).KeysWithin state := by
  rcases state.evictLruForTenant_cases tenant with ⟨key, _, evicted⟩ | ⟨key, _, evicted⟩ |
    ⟨_, same⟩
  · exact evicted ▸ state.removeInvocation_within key
  · exact evicted ▸ state.removeValue_within key
  · rw [same]
    exact .refl state

theorem tenantKeyCount_evictLruForTenant (some : 0 < state.tenantKeyCount tenant) :
    (state.evictLruForTenant tenant).tenantKeyCount tenant + 1 = state.tenantKeyCount tenant := by
  rcases state.evictLruForTenant_cases tenant with ⟨_, mine, evicted⟩ | ⟨_, mine, evicted⟩ |
    ⟨none, _⟩
  · have less : _ + 1 = (state.invocationKeysOf tenant).card := card_keysOf_remove mine
    rw [evicted, tenantKeyCount, tenantKeyCount, ← less, Nat.add_right_comm]
    rfl
  · have less : _ + 1 = (state.valueKeysOf tenant).card := card_keysOf_remove mine
    rw [evicted, tenantKeyCount, tenantKeyCount, ← less]
    rfl
  · omega

theorem makeRoom_room {present full : Bool} {evictAny : PredicateState → PredicateState}
    (quota : state.Quota) (anyWithin : (evictAny state).KeysWithin state) : present = true ∧
        state.makeRoom present full (evictLruForTenant tenant) evictAny tenant = state ∨
      (state.makeRoom present full (evictLruForTenant tenant) evictAny tenant).tenantKeyCount
        tenant < maxKeysPerTenant := by
  unfold makeRoom
  split
  · exact .inl ⟨‹_›, rfl⟩
  split
  next atBound =>
    have positive : 0 < state.tenantKeyCount tenant := lt_of_lt_of_le (by decide) atBound
    have less := tenantKeyCount_evictLruForTenant positive
    have bound := quota tenant
    exact .inr (by omega)
  next below =>
    split
    · exact .inr ((anyWithin.tenantKeyCount_le tenant).trans_lt (Nat.not_le.mp below))
    · exact .inr (Nat.not_le.mp below)

end

theorem Quota.grow {after before : PredicateState} (quota : before.Quota) (owner : TenantId)
    (others : ∀ tenant, owner ≠ tenant → after.Agree tenant before)
    (grows : after.tenantKeyCount owner ≤ before.tenantKeyCount owner + 1)
    (room : after.tenantKeyCount owner ≤ before.tenantKeyCount owner ∨
      before.tenantKeyCount owner < maxKeysPerTenant) : after.Quota := by
  intro tenant
  by_cases own : owner = tenant
  · subst own
    have bound := quota owner
    omega
  · rw [(others tenant own).tenantKeyCount_eq]
    exact quota tenant

theorem Quota.settleInvocation (quota : state.Quota) {key : InvocationKey}
    {bucket : InvocationBucket} (room : key ∈ state.invocationHistory.keys ∨
      state.tenantKeyCount key.tenantId < maxKeysPerTenant) :
    Quota { state with
      invocationHistory := settle empty key bucket state.invocationHistory } := by
  refine quota.grow key.tenantId ?_ ?_ (room.imp ?_ id)
  · exact fun tenant different => ⟨settle_other different, .refl _ _⟩
  · rw [tenantKeyCount, tenantKeyCount, Nat.add_right_comm]
    exact Nat.add_le_add_right (card_keysOf_settle_le _) _
  · exact fun present => Nat.add_le_add_right (card_keysOf_settle_of_mem present _) _

theorem Quota.settleValue (quota : state.Quota) {key : ValueKey} {bucket : ValueBucket}
    (room : key ∈ state.valueHistory.keys ∨ state.tenantKeyCount key.tenantId < maxKeysPerTenant) :
    Quota { state with valueHistory := settle empty key bucket state.valueHistory } := by
  refine quota.grow key.tenantId ?_ ?_ (room.imp ?_ id)
  · exact fun tenant different => ⟨.refl _ _, settle_other different⟩
  · rw [tenantKeyCount, tenantKeyCount, Nat.add_assoc]
    exact Nat.add_le_add_left (card_keysOf_settle_le _) _
  · exact fun present => Nat.add_le_add_left (card_keysOf_settle_of_mem present _) _

/-! ## Space for few tenants -/

structure OwnedBy (tenants : Finset TenantId) (state : PredicateState) : Prop where
  invocations : ∀ key ∈ state.invocationHistory.keys, key.tenantId ∈ tenants
  values : ∀ key ∈ state.valueHistory.keys, key.tenantId ∈ tenants

theorem OwnedBy.of_within {after before : PredicateState} (owned : before.OwnedBy tenants)
    (within : after.KeysWithin before) : after.OwnedBy tenants :=
  ⟨fun key present => owned.invocations key (within.invocations present),
    fun key present => owned.values key (within.values present)⟩

/-- A tenant below its bound leaves both maps below theirs. -/
def Space (tenant : TenantId) (state : PredicateState) : Prop :=
  state.tenantKeyCount tenant < maxKeysPerTenant →
    state.invocationHistory.keys.card < maxHistoryKeys ∧
      state.valueHistory.keys.card < maxHistoryKeys

theorem Space.invocations (space : state.Space tenant)
    (below : state.tenantKeyCount tenant < maxKeysPerTenant) :
    decide (maxHistoryKeys ≤ state.invocationHistory.keys.card) = false :=
  decide_eq_false (Nat.not_le.mpr (space below).1)

theorem Space.values (space : state.Space tenant)
    (below : state.tenantKeyCount tenant < maxKeysPerTenant) :
    decide (maxHistoryKeys ≤ state.valueHistory.keys.card) = false :=
  decide_eq_false (Nat.not_le.mpr (space below).2)

theorem space_of_few (few : tenants.card ≤ 4) (mine : tenant ∈ tenants)
    (owned : state.OwnedBy tenants) (quota : state.Quota) : state.Space tenant := by
  intro below
  have total : ∑ each ∈ tenants, state.tenantKeyCount each < maxHistoryKeys := by
    calc ∑ each ∈ tenants, state.tenantKeyCount each
        < ∑ _each ∈ tenants, maxKeysPerTenant :=
          sum_lt_sum (fun each _ => quota each) ⟨tenant, mine, below⟩
      _ = tenants.card * maxKeysPerTenant := sum_const_nat fun _ _ => rfl
      _ ≤ 4 * maxKeysPerTenant := Nat.mul_le_mul_right _ few
      _ = maxHistoryKeys := rfl
  constructor
  · rw [card_keys_eq_sum owned.invocations]
    exact (sum_le_sum fun each _ => Nat.le_add_right _ _).trans_lt total
  · rw [card_keys_eq_sum owned.values]
    exact (sum_le_sum fun each _ => Nat.le_add_left _ _).trans_lt total

/-! ## The three calls -/

section

variable [LinearOrder InvocationKey] [LinearOrder ValueKey]

theorem makeRoomForInvocation_within (key : InvocationKey) (state : PredicateState) :
    (state.makeRoomForInvocation key).KeysWithin state :=
  makeRoom_within (state.evictLruForTenant_within _) state.evictLruInvocation_within

theorem makeRoomForValue_within (key : ValueKey) (state : PredicateState) :
    (state.makeRoomForValue key).KeysWithin state :=
  makeRoom_within (state.evictLruForTenant_within _) state.evictLruValue_within

theorem Quota.recordInvocation (quota : state.Quota) (key : InvocationKey)
    (eventId : PredicateEventId) (now : Time) (window : Nat) :
    (state.recordInvocation key eventId now window).2.Quota := by
  refine (quota.of_within (state.makeRoomForInvocation_within key)).settleInvocation ?_
  refine (makeRoom_room quota state.evictLruInvocation_within).imp ?_ id
  rintro ⟨present, same⟩
  rw [makeRoomForInvocation, same]
  exact mem_keys.mpr present

theorem Quota.recordValue (quota : state.Quota) (key : ValueKey) (eventId : PredicateEventId)
    (now : Time) (value : Decimal) (window : Nat) :
    (state.recordValue key eventId now value window).2.Quota := by
  have within := quota.of_within (state.makeRoomForValue_within key)
  have room : key ∈ (state.makeRoomForValue key).valueHistory.keys ∨
      (state.makeRoomForValue key).tenantKeyCount key.tenantId < maxKeysPerTenant := by
    refine (makeRoom_room quota state.evictLruValue_within).imp ?_ id
    rintro ⟨present, same⟩
    rw [makeRoomForValue, same]
    exact mem_keys.mpr present
  simp only [PredicateState.recordValue]
  split
  · exact within.settleValue room
  · exact @settleValue _ false within key _ room

def apply (state : PredicateState) : PredicateOp → PredicateAnswer × PredicateState
  | .recordInvocation key eventId now window =>
    let (result, after) := state.recordInvocation key eventId now window
    (.count result, after)
  | .recordValue key eventId now value window =>
    let (result, after) := state.recordValue key eventId now value window
    (.sum result, after)
  | .evictOlderThan cutoff =>
    let (result, after) := state.evictOlderThan cutoff
    (.dropped result, after)

def after (state : PredicateState) (op : PredicateOp) : PredicateState := (state.apply op).2

theorem Quota.after (quota : state.Quota) (op : PredicateOp) : (state.after op).Quota := by
  cases op with
  | recordInvocation key eventId now window => exact quota.recordInvocation key eventId now window
  | recordValue key eventId now value window => exact quota.recordValue key eventId now value window
  | evictOlderThan => exact quota.of_within (state.evictOlderThan_within _)

theorem OwnedBy.after {tenants : Finset TenantId} (owned : state.OwnedBy tenants)
    {op : PredicateOp} (mine : ∀ tenant, op.tenant = some tenant → tenant ∈ tenants) :
    (state.after op).OwnedBy tenants := by
  cases op with
  | recordInvocation key =>
    have room := owned.of_within (state.makeRoomForInvocation_within key)
    refine ⟨fun stored present => ?_, room.values⟩
    rcases mem_insert.mp (keys_settle_subset present) with rfl | old
    · exact mine stored.tenantId rfl
    · exact room.invocations stored old
  | recordValue key =>
    have room := owned.of_within (state.makeRoomForValue_within key)
    have settled : ∀ empty bucket, ∀ stored ∈ (settle empty key bucket
        (state.makeRoomForValue key).valueHistory).keys, stored.tenantId ∈ tenants := by
      intro _ _ stored present
      rcases mem_insert.mp (keys_settle_subset present) with rfl | old
      · exact mine stored.tenantId rfl
      · exact room.values stored old
    simp only [PredicateState.after, apply, recordValue]
    split
    · exact ⟨room.invocations, settled _ _⟩
    · exact ⟨room.invocations, settled false _⟩
  | evictOlderThan => exact owned.of_within (state.evictOlderThan_within _)

/-! ## Calls of the tenant itself -/

theorem Agree.makeRoom (agree : first.Agree tenant second) {present firstFull secondFull : Bool}
    {evictAny : PredicateState → PredicateState}
    (firstSpace : first.tenantKeyCount tenant < maxKeysPerTenant → firstFull = false)
    (secondSpace : second.tenantKeyCount tenant < maxKeysPerTenant → secondFull = false) :
    Agree tenant
      (first.makeRoom present firstFull (PredicateState.evictLruForTenant tenant) evictAny tenant)
      (second.makeRoom present secondFull (PredicateState.evictLruForTenant tenant) evictAny
        tenant) := by
  rw [makeRoom_of_space firstSpace, makeRoom_of_space secondSpace, agree.tenantKeyCount_eq]
  split
  · exact agree
  split
  · exact agree.evictLruForTenant
  · exact agree

theorem makeRoom_other {owner : TenantId} (different : owner ≠ tenant) {present full : Bool}
    {evictAny : PredicateState → PredicateState}
    (space : state.tenantKeyCount owner < maxKeysPerTenant → full = false) :
    (state.makeRoom present full (evictLruForTenant owner) evictAny owner).Agree tenant state := by
  rw [makeRoom_of_space space]
  split
  · exact .refl tenant state
  split
  · exact evictLruForTenant_other different state
  · exact .refl tenant state

theorem Agree.recordInvocation {key : InvocationKey} (agree : first.Agree key.tenantId second)
    (firstSpace : first.Space key.tenantId) (secondSpace : second.Space key.tenantId)
    (eventId : PredicateEventId) (now : Time) (window : Nat) :
    (first.recordInvocation key eventId now window).1 =
        (second.recordInvocation key eventId now window).1 ∧
      (first.recordInvocation key eventId now window).2.Agree key.tenantId
        (second.recordInvocation key eventId now window).2 := by
  have room : (first.makeRoomForInvocation key).Agree key.tenantId
      (second.makeRoomForInvocation key) := by
    unfold makeRoomForInvocation containsKey
    rw [agree.invocations key rfl]
    exact agree.makeRoom firstSpace.invocations secondSpace.invocations
  simp only [PredicateState.recordInvocation, room.invocations key rfl]
  exact ⟨trivial, settle_agree room.invocations, room.values⟩

theorem Agree.recordValue {key : ValueKey} (agree : first.Agree key.tenantId second)
    (firstSpace : first.Space key.tenantId) (secondSpace : second.Space key.tenantId)
    (eventId : PredicateEventId) (now : Time) (value : Decimal) (window : Nat) :
    (first.recordValue key eventId now value window).1 =
        (second.recordValue key eventId now value window).1 ∧
      (first.recordValue key eventId now value window).2.Agree key.tenantId
        (second.recordValue key eventId now value window).2 := by
  have room : (first.makeRoomForValue key).Agree key.tenantId (second.makeRoomForValue key) := by
    unfold makeRoomForValue containsKey
    rw [agree.values key rfl]
    exact agree.makeRoom firstSpace.values secondSpace.values
  simp only [PredicateState.recordValue, room.values key rfl]
  split
  · exact ⟨rfl, room.invocations, settle_agree room.values⟩
  · exact ⟨rfl, room.invocations, room.values.insert key _⟩

end

/-! ## Sweeps -/

/-- No running sum overflows when the values before the cutoff are taken from it. -/
def Sweeps (cutoff : Time) (state : PredicateState) : Prop :=
  ∀ key bucket, state.valueHistory.get key = some bucket → (bucket.trim cutoff).isOk = true

section

variable [LinearOrder ValueKey]

theorem firstOverflow_eq_none {cutoff : Time} (sweeps : state.Sweeps cutoff) :
    state.firstOverflow cutoff = none := by
  have nobody : (state.valueHistory.keys.filter fun key =>
      ((state.valueHistory.get key).any fun bucket => !(bucket.trim cutoff).isOk)) = ∅ := by
    refine filter_eq_empty_iff.mpr fun key _ overflows => ?_
    obtain ⟨bucket, found, failed⟩ := (Option.any_eq_true _ _).mp overflows
    rw [sweeps key bucket found] at failed
    cases failed
  rw [firstOverflow, nobody]
  rfl

theorem Agree.evictOlderThan {cutoff : Time} (agree : first.Agree tenant second)
    (firstSweeps : first.Sweeps cutoff) (secondSweeps : second.Sweeps cutoff) :
    (first.evictOlderThan cutoff).2.Agree tenant (second.evictOlderThan cutoff).2 := by
  simp only [PredicateState.evictOlderThan, firstOverflow_eq_none firstSweeps,
    firstOverflow_eq_none secondSweeps]
  constructor
  · intro key own
    rw [get_filterMap, get_filterMap, agree.invocations key own]
  · intro key own
    rw [get_filterMap, get_filterMap, agree.values key own]

end

/-- The call does not end in the middle of a sweep. -/
def Calm (state : PredicateState) : PredicateOp → Prop
  | .evictOlderThan cutoff => state.Sweeps cutoff
  | _ => True

theorem Calm.part {op : PredicateOp} (calm : first.Calm op) (agree : first.Agree tenant second)
    (owned : second.OwnedBy {tenant}) : second.Calm op := by
  cases op with
  | recordInvocation key eventId now window | recordValue key => trivial
  | evictOlderThan =>
    intro key bucket found
    have present : key ∈ second.valueHistory.keys := mem_keys.mpr (by rw [found]; rfl)
    have own := mem_singleton.mp (owned.values key present)
    exact calm key bucket ((agree.values key own).trans found)

/-! ## Runs -/

theorem quota_new : new.Quota := fun _ => Nat.zero_le _

theorem ownedBy_new (tenants : Finset TenantId) : new.OwnedBy tenants :=
  ⟨fun _ absent => absurd absent (notMem_empty _),
    fun _ absent => absurd absent (notMem_empty _)⟩

section

variable [LinearOrder InvocationKey] [LinearOrder ValueKey]

def answersTo (tenant : TenantId) : List PredicateOp → PredicateState → List PredicateAnswer
  | [], _ => []
  | op :: rest, state =>
    if op.tenant = some tenant then
      (state.apply op).1 :: answersTo tenant rest (state.after op)
    else answersTo tenant rest (state.after op)

theorem Agree.after {op : PredicateOp} (agree : first.Agree tenant second)
    (concerned : op.concerns tenant = true) (firstCalm : first.Calm op)
    (secondCalm : second.Calm op) (firstSpace : op.tenant = some tenant → first.Space tenant)
    (secondSpace : second.Space tenant) :
    (op.tenant = some tenant → (first.apply op).1 = (second.apply op).1) ∧
      (first.after op).Agree tenant (second.after op) := by
  cases op with
  | recordInvocation key eventId now window =>
    obtain rfl : key.tenantId = tenant := of_decide_eq_true concerned
    obtain ⟨answered, kept⟩ :=
      agree.recordInvocation (firstSpace rfl) secondSpace eventId now window
    exact ⟨fun _ => congrArg PredicateAnswer.count answered, kept⟩
  | recordValue key eventId now value window =>
    obtain rfl : key.tenantId = tenant := of_decide_eq_true concerned
    obtain ⟨answered, kept⟩ :=
      agree.recordValue (firstSpace rfl) secondSpace eventId now value window
    exact ⟨fun _ => congrArg PredicateAnswer.sum answered, kept⟩
  | evictOlderThan => exact ⟨nofun, agree.evictOlderThan firstCalm secondCalm⟩

theorem after_other {op : PredicateOp} (unconcerned : op.concerns tenant = false)
    (space : ∀ caller, op.tenant = some caller → state.Space caller) :
    (state.after op).Agree tenant state := by
  cases op with
  | recordInvocation key eventId now window =>
    have different : key.tenantId ≠ tenant := of_decide_eq_false unconcerned
    have room : (state.makeRoomForInvocation key).Agree tenant state :=
      makeRoom_other different (space _ rfl).invocations
    exact ⟨(settle_other different).trans room.invocations, room.values⟩
  | recordValue key =>
    have different : key.tenantId ≠ tenant := of_decide_eq_false unconcerned
    have room : (state.makeRoomForValue key).Agree tenant state :=
      makeRoom_other different (space _ rfl).values
    simp only [after, apply, recordValue]
    split
    · exact ⟨room.invocations, (settle_other different).trans room.values⟩
    · exact ⟨room.invocations, (insert_other _ _ different).trans room.values⟩
  | evictOlderThan => cases unconcerned

/-- The run with everybody and the run of the tenant alone go side by side. -/
theorem answersTo_side_by_side {tenants : Finset TenantId} (few : tenants.card ≤ 4)
    (ops : List PredicateOp)
    (used : ∀ op ∈ ops, ∀ caller, op.tenant = some caller → caller ∈ tenants)
    (agree : first.Agree tenant second) (firstQuota : first.Quota) (secondQuota : second.Quota)
    (firstOwned : first.OwnedBy tenants) (secondOwned : second.OwnedBy {tenant})
    (calm : System.AllowedAlong Calm after first ops) : answersTo tenant ops first =
      answersTo tenant (ops.filter (PredicateOp.concerns tenant)) second := by
  induction ops generalizing first second with
  | nil => rfl
  | cons op _ ih =>
    have callers := used op List.mem_cons_self
    have space : ∀ caller, op.tenant = some caller → first.Space caller :=
      fun caller calls => space_of_few few (callers caller calls) firstOwned firstQuota
    have usedRest := fun other listed => used other (List.mem_cons_of_mem _ listed)
    have nextOwned := firstOwned.after callers
    cases concerned : op.concerns tenant with
    | true =>
      have alone := space_of_few (by simp) (mem_singleton_self tenant) secondOwned
        secondQuota
      have secondCallers : ∀ caller, op.tenant = some caller →
          caller ∈ ({tenant} : Finset TenantId) := by
        intro caller calls
        simpa [PredicateOp.concerns, calls] using concerned
      obtain ⟨answered, kept⟩ := agree.after concerned calm.1 (calm.1.part agree secondOwned)
        (space tenant) alone
      have followed := ih usedRest kept (firstQuota.after op) (secondQuota.after op) nextOwned
        (secondOwned.after secondCallers) calm.2
      rw [List.filter_cons_of_pos concerned, answersTo, answersTo]
      split
      next mine => rw [answered mine, followed]
      · exact followed
    | false =>
      have kept := after_other concerned space
      have notMine : op.tenant ≠ some tenant := by
        intro mine
        simp [PredicateOp.concerns, mine] at concerned
      rw [List.filter_cons_of_neg (by simp [concerned]), answersTo, if_neg notMine]
      exact ih usedRest (kept.trans agree) (firstQuota.after op) secondQuota nextOwned
        secondOwned calm.2

theorem Quota.run (quota : state.Quota) (ops : List PredicateOp) :
    (ops.foldl PredicateState.after state).Quota := by
  induction ops generalizing state with
  | nil => exact quota
  | cons op _ ih => exact ih (quota.after op)

/-- At most four tenants do not meet: as long as no sweep is cut short, a tenant is answered as
if it were alone.  In every run it holds no more keys than its quota. -/
theorem answersTo_eq_alone (ops : List PredicateOp) (tenant : TenantId) :
    (∀ tenants : Finset TenantId, tenants.card ≤ 4 →
      (∀ op ∈ ops, ∀ caller, op.tenant = some caller → caller ∈ tenants) →
      System.AllowedAlong Calm after new ops → answersTo tenant ops new =
        answersTo tenant (ops.filter (PredicateOp.concerns tenant)) new) ∧
      (ops.foldl after new).tenantKeyCount tenant ≤ maxKeysPerTenant := by
  refine ⟨fun tenants few used calm => ?_, Quota.run quota_new ops tenant⟩
  exact answersTo_side_by_side few ops used (.refl tenant new) quota_new quota_new
    (ownedBy_new tenants) (ownedBy_new {tenant}) calm

end

end PredicateState

open PredicateState

/-! ## A sweep that is cut short -/

def InvocationKey.parts (key : InvocationKey) : ℕ ×ₗ List Char ×ₗ List Char :=
  toLex (key.hookId.digest, toLex (key.tenantId.value.toList, key.capability.toList))

def ValueKey.parts (key : ValueKey) : ℕ ×ₗ List Char ×ₗ List Char ×ₗ List Char :=
  toLex (key.hookId.digest, toLex (key.tenantId.value.toList,
    toLex (key.capability.toList, key.field.toList)))

theorem InvocationKey.parts_injective : Function.Injective parts := by
  rintro ⟨⟨_⟩, ⟨_⟩, _⟩ ⟨⟨_⟩, ⟨_⟩, _⟩ same
  simpa [parts, String.toList_inj] using same

theorem ValueKey.parts_injective : Function.Injective ValueKey.parts := by
  rintro ⟨⟨_⟩, ⟨_⟩, _, _⟩ ⟨⟨_⟩, ⟨_⟩, _, _⟩ same
  simpa [parts, String.toList_inj] using same

instance : LinearOrder InvocationKey := lift' parts parts_injective

instance : LinearOrder ValueKey := lift' ValueKey.parts ValueKey.parts_injective

def amountKey (tenant : String) : ValueKey := ⟨⟨1⟩, ⟨tenant⟩, "wallet.send", "amount"⟩

def least : Decimal := ⟨-Decimal.max.units, 0, by decide⟩

def coins (count : Fin 4) : Decimal := ⟨count * Decimal.quantum 0, 0, by revert count; decide⟩

def amount (tenant id : String) (now : Time) (value : Decimal) : PredicateOp :=
  .recordValue (amountKey tenant) ⟨id⟩ now value 100

/-- Both tenants record an amount, a sweep drops both, and `b` records once more. -/
def calmSweep : List PredicateOp :=
  [amount "a" "1" 0 .max, amount "b" "2" 0 (coins 1), .evictOlderThan 1,
    amount "b" "3" 2 (coins 2)]

theorem two_tenants_isolated :
    answersTo ⟨"b"⟩ calmSweep .new = [.sum (.ok (coins 1)), .sum (.ok (coins 2))] := by
  have sweeps : ((calmSweep.take 2).foldl after new).Sweeps 1 := by
    intro key bucket found
    have swept : ∀ key ∈ ((calmSweep.take 2).foldl after new).valueHistory.keys,
        (((calmSweep.take 2).foldl after new).valueHistory.get key).all
          (fun bucket => (bucket.trim 1).isOk) = true := by decide +kernel
    simpa [found] using swept key (mem_keys.mpr (by rw [found]; rfl))
  have alone := (answersTo_eq_alone calmSweep ⟨"b"⟩).1 {⟨"a"⟩, ⟨"b"⟩} (by decide)
    (by simp [calmSweep, amount, PredicateOp.tenant, amountKey])
    ⟨trivial, trivial, sweeps, trivial, trivial⟩
  rw [alone]
  decide +kernel

/-- Taking the first amount of `a` out of its sum overflows, and the sweep never comes to
`b`. -/
def cutSweep : List PredicateOp :=
  [amount "a" "1" 0 least, amount "a" "2" 1 .max, amount "a" "3" 1 .max,
    amount "b" "4" 0 (coins 1), .evictOlderThan 1,
    amount "b" "5" 2 (coins 1)]

/-- With the calls of `a` the old amount of `b` still counts, without them it does not. -/
theorem cutSweep_changes_answers : answersTo ⟨"b"⟩ cutSweep .new =
        [.sum (.ok (coins 1)), .sum (.ok (coins 2))] ∧
      answersTo ⟨"b"⟩ (cutSweep.filter (PredicateOp.concerns ⟨"b"⟩)) .new =
        [.sum (.ok (coins 1)), .sum (.ok (coins 1))] := by
  decide +kernel

end Ironclaw.Hooks
