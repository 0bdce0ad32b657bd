import Ironclaw.Turns.Capacity

/-!
# Concurrency caps

The limiter keeps one counter for each user and one for each origin class of a
tenant.  A counter is the number of runs with its key that hold a runner, since every
status change of a run is followed by the limiter and nothing else touches it; a claim
is made only below the cap.
-/

namespace Ironclaw.Turns

open ProductTurnContext
open HostApi Lib ConcurrencyLimiter Table StatusTransition Turns.Inner ConcurrencyLimits Roster

/-- The keys of both counter tables. -/
inductive SlotKey where
  | user (key : TenantId × UserId)
  | origin (key : TenantId × OriginClass)

def RunSlotInfo.counted (info : RunSlotInfo) : SlotKey → Bool
  | .user key => decide (userKeyFrom info = some key)
  | .origin key => decide (originKeyFrom info = some key)

/-- A run counts for the owner of its thread, who is the actor where the thread falls back
to it, and for the kind of origin its turn has. -/
def RunRecord.runsUnder (record : RunRecord) : SlotKey → Bool
  | .user (tenantId, userId) => record.scope.tenantId = tenantId ∧
      (record.scope.threadOwner = .explicitUser userId ∨
        record.scope.threadOwner = .actorFallback ∧ record.actor.userId = userId)
  | .origin (tenantId, .trigger) => record.scope.tenantId = tenantId ∧
      record.productContext.map origin = some .scheduledTrigger
  | .origin (tenantId, .conversation) => record.scope.tenantId = tenantId ∧
      (record.productContext.map origin = some .inbound ∨
        record.productContext.map origin = some .webUi)

def ConcurrencyLimits.capOf (limits : ConcurrencyLimits) : SlotKey → Option NonZeroCount
  | .user _ => limits.maxConcurrentRunsPerUser
  | .origin (_, .trigger) => limits.maxConcurrentTriggerRuns
  | .origin (_, .conversation) => limits.maxConcurrentConversationRuns

theorem counted_slotInfoFor (record : RunRecord) (key : SlotKey) :
    (slotInfoFor record).counted key = record.runsUnder key := by
  rcases key with ⟨tenantId, userId⟩ | ⟨tenantId, originClass⟩
  · cases owner : record.scope.threadOwner <;>
      simp [RunSlotInfo.counted, RunRecord.runsUnder, slotInfoFor, userKeyFrom, owner]
  · cases given : record.productContext.map origin with
    | none =>
      cases originClass <;>
        simp [RunSlotInfo.counted, RunRecord.runsUnder, slotInfoFor, originKeyFrom, given]
    | some origin =>
      cases originClass <;> cases origin <;>
        simp [RunSlotInfo.counted, RunRecord.runsUnder, slotInfoFor, originKeyFrom, given]

variable {limits : ConcurrencyLimits}

namespace ConcurrencyLimiter

def counter (limiter : ConcurrencyLimiter) : SlotKey → Nat
  | .user key => (limiter.runningByUser.get key).getD 0
  | .origin key => (limiter.runningByOriginClass.get key).getD 0

section

variable {κ : Type} [DecidableEq κ] (counters : Table κ Nat) (entered : Option κ) (key : κ)

theorem getD_enterSlot : ((enterSlot counters entered).get key).getD 0 =
    (counters.get key).getD 0 + (decide (entered = some key)).toNat := by
  cases entered with
  | none => rfl
  | some own =>
    rw [enterSlot, get_insert]
    by_cases same : key = own
    · subst same
      simp
    · simp [same, Ne.symm same]

theorem getD_leaveSlot : ((leaveSlot counters entered).get key).getD 0 =
    (counters.get key).getD 0 - (decide (entered = some key)).toNat := by
  cases entered with
  | none => rfl
  | some own =>
    rw [leaveSlot]
    split
    next missing =>
      by_cases same : key = own
      · subst same
        simp [missing]
      · simp [Ne.symm same]
    next _ held =>
      by_cases same : key = own
      · subst same
        split
        · rename_i last
          simp [held, last]
        · simp [held]
      · split
        · simp [get_remove_of_ne _ same, Ne.symm same]
        · simp [get_insert_of_ne _ _ same, Ne.symm same]

end

variable (infos : List RunSlotInfo) (limiter : ConcurrencyLimiter) (info : RunSlotInfo)
    (key : SlotKey)

theorem counter_onEnterRunning : (limiter.onEnterRunning info).counter key =
      limiter.counter key + (info.counted key).toNat := by
  cases key with
  | user key | origin => exact getD_enterSlot _ _ _

theorem counter_onLeaveRunning : (limiter.onLeaveRunning info).counter key =
      limiter.counter key - (info.counted key).toNat := by
  cases key with
  | user key | origin => exact getD_leaveSlot _ _ _

theorem counter_foldl_onEnterRunning : (infos.foldl onEnterRunning limiter).counter key =
      limiter.counter key + (infos.filter fun info => info.counted key).length := by
  induction infos generalizing limiter with
  | nil => rfl
  | cons info _ ih =>
    rw [List.foldl_cons, ih, counter_onEnterRunning, List.filter_cons]
    cases info.counted key with
    | false => rfl
    | true =>
      rw [if_pos rfl, List.length_cons, Bool.toNat_true]
      omega

theorem limits_foldl_onEnterRunning :
    (infos.foldl onEnterRunning limiter).limits = limiter.limits := by
  induction infos generalizing limiter with
  | nil => rfl
  | cons _ _ ih => exact ih _

theorem limits_rebuildFrom (limits : ConcurrencyLimits) (infos : List RunSlotInfo) :
    (rebuildFrom limits infos).limits = some limits := by
  unfold rebuildFrom
  split
  · exact limits_foldl_onEnterRunning _ _
  · rfl

theorem counter_rebuildFrom (capped : limits.anyCapEnabled = true)
    (infos : List RunSlotInfo) (key : SlotKey) : (rebuildFrom limits infos).counter key =
      (infos.filter fun info => info.counted key).length := by
  rw [rebuildFrom, if_pos capped, counter_foldl_onEnterRunning]
  cases key <;> simp [counter, withLimits]

theorem belowCap_iff {κ : Type} [DecidableEq κ] (counters : Table κ Nat) (key : κ)
    (cap? : Option NonZeroCount) : belowCap counters key cap? = true ↔
      ∀ cap, cap? = some cap → (counters.get key).getD 0 < cap.val := by
  cases cap? <;> simp [belowCap]

theorem canClaim_iff {limiter : ConcurrencyLimiter}
    (configured : limiter.limits = some limits) (info : RunSlotInfo) :
    limiter.canClaim info = true ↔ ∀ key, info.counted key = true →
      ∀ cap, limits.capOf key = some cap → limiter.counter key < cap.val := by
  have splits : (∀ key, info.counted key = true → ∀ cap, limits.capOf key = some cap →
      limiter.counter key < cap.val) ↔
      (∀ key, userKeyFrom info = some key → ∀ cap, limits.maxConcurrentRunsPerUser = some cap →
        (limiter.runningByUser.get key).getD 0 < cap.val) ∧
      ∀ key, originKeyFrom info = some key → ∀ cap, limits.capOf (.origin key) = some cap →
        (limiter.runningByOriginClass.get key).getD 0 < cap.val := by
    constructor
    · intro below
      exact ⟨fun key mine => below (.user key) (decide_eq_true mine),
        fun key mine => below (.origin key) (decide_eq_true mine)⟩
    · rintro ⟨user, origin⟩ (key | key) mine
      · exact user key (of_decide_eq_true mine)
      · exact origin key (of_decide_eq_true mine)
  rw [splits]
  unfold canClaim
  rw [configured, Bool.and_eq_true]
  refine and_congr ?_ ?_
  · cases owner : userKeyFrom info with
    | none => simp
    | some => simp [belowCap_iff]
  · unfold originKeyFrom
    cases info.productContext with
    | none => simp
    | some originClass => cases originClass <;> simp [belowCap_iff, capOf]

end ConcurrencyLimiter

namespace Roster

variable (roster : Roster)

/-- How many runs with the key hold a runner. -/
def slotCount (key : SlotKey) : Nat :=
  roster.records.countValues fun record =>
    holdsRunningSlot record.status && (slotInfoFor record).counted key

/-- Every counter is the number of runs it stands for. -/
def SlotsExact : Prop :=
  ∀ key, roster.concurrency.counter key = roster.slotCount key

variable {leaks : Prop} {before after : Roster}

theorem SlotsExact.step (precise : before.SlotsExact)
    (step : Step leaks before after) : after.SlotsExact := by
  intro key
  have same := precise key
  unfold slotCount at same ⊢
  cases step with
  | @rewrite previous record ledger books =>
    have counted := countValues_insert before.records record.runId record
      fun record => holdsRunningSlot record.status && (slotInfoFor record).counted key
    rw [ledger.found, Option.any_some, ← ledger.records, ← books.same.slotInfo] at counted
    rw [books.slots]
    cases was : holdsRunningSlot previous.status <;> cases is : holdsRunningSlot record.status <;>
      simp only [was, is, between, follow, counter_onEnterRunning, counter_onLeaveRunning,
        Bool.false_and, Bool.true_and, Bool.toNat_false] at counted ⊢ <;> omega
  | @drop record runId drops =>
    have counted := countValues_remove before.records runId
      fun record => holdsRunningSlot record.status && (slotInfoFor record).counted key
    have idle : holdsRunningSlot record.status = false := idle_of_isTerminal drops.ledger.ended
    rw [drops.ledger.found, Option.any_some, idle, Bool.false_and, Bool.toNat_false,
      ← drops.ledger.records] at counted
    rw [drops.slots]
    omega
  | shuffle _ _ after_eq =>
    rw [after_eq]
    exact same

theorem SlotsExact.opens {opening : Opening} {record : RunRecord}
    {lock : TurnActiveLockRecord} (precise : before.SlotsExact)
    (opens : Opens opening before after record lock) : after.SlotsExact := by
  intro key
  have counted := countValues_insert before.records record.runId record
    fun record => holdsRunningSlot record.status && (slotInfoFor record).counted key
  have idle : holdsRunningSlot record.status = false := by rw [opens.queued]; rfl
  rw [opens.ledger.fresh, idle, Option.any_none, Bool.false_and, Bool.toNat_false,
    ← opens.ledger.records] at counted
  have same := precise key
  rw [opens.slots]
  unfold slotCount at same ⊢
  omega

def WithinCaps : Prop :=
  ∀ limits, roster.concurrency.limits = some limits → ∀ key cap, limits.capOf key = some cap →
    roster.concurrency.counter key ≤ cap.val

theorem WithinCaps.of_counters (within : before.WithinCaps)
    (limits : after.concurrency.limits = before.concurrency.limits)
    (counters : ∀ key, after.concurrency.counter key ≤ before.concurrency.counter key) :
    after.WithinCaps := by
  intro configured same key cap capped
  rw [limits] at same
  exact (counters key).trans (within configured same key cap capped)

theorem Step.limiterLimits (step : Step leaks before after) :
    after.concurrency.limits = before.concurrency.limits := by
  cases step with
  | rewrite _ books =>
    rw [books.slots]
    cases between _ _ <;> rfl
  | drop drops => rw [drops.slots]
  | shuffle _ _ after_eq => rw [after_eq]

theorem WithinCaps.step (within : before.WithinCaps)
    (step : Step leaks before after) : after.WithinCaps := by
  have limits := step.limiterLimits
  cases step with
  | @rewrite previous record _ books =>
    cases transition : between previous.status record.status with
    | enteredRunning =>
      intro configured same key cap capped
      rw [limits] at same
      have room := (canClaim_iff same _).mp (books.capped transition) key
      have bound := within configured same key cap capped
      rw [books.slots, transition, follow, counter_onEnterRunning]
      cases mine : (slotInfoFor record).counted key with
      | false => exact bound
      | true => exact room mine cap capped
    | leftRunning =>
      refine within.of_counters limits fun key => ?_
      rw [books.slots, transition, follow, counter_onLeaveRunning]
      exact Nat.sub_le _ _
    | unchanged =>
      refine within.of_counters limits fun key => ?_
      rw [books.slots, transition, follow]
  | drop drops => exact within.of_counters limits fun key => by rw [drops.slots]
  | shuffle _ _ after_eq =>
    rw [after_eq]
    exact within

end Roster

/-! ## Restarts -/

/-- A restart keeps the configured caps. -/
def RestartOp.KeepsCaps (inner : Inner) : RestartOp → Prop
  | .call _ => True
  | .restart limits _ => inner.concurrency.limits = some (concurrencyLimits limits)

/-- Some cap is configured: without one a restart counts nothing. -/
def Roster.Capped (roster : Roster) : Prop :=
  ∃ limits, roster.concurrency.limits = some limits ∧ limits.anyCapEnabled = true

theorem ConcurrencyLimits.anyCapEnabled_of_capOf {key : SlotKey}
    {cap : NonZeroCount} (capped : limits.capOf key = some cap) : limits.anyCapEnabled = true := by
  unfold anyCapEnabled
  rcases key with _ | ⟨_, originClass⟩
  · simp [show limits.maxConcurrentRunsPerUser = some cap from capped]
  · cases originClass with
    | trigger => simp [show limits.maxConcurrentTriggerRuns = some cap from capped]
    | conversation => simp [show limits.maxConcurrentConversationRuns = some cap from capped]

namespace Inner

variable {inner reloaded : Inner} {limits : InMemoryTurnStateStoreLimits} {order : IterationOrder}

theorem Reloaded.limiterLimits (loaded : inner.Reloaded reloaded limits order) :
    reloaded.concurrency.limits = some (concurrencyLimits limits) := by
  rw [loaded.concurrency]
  exact limits_rebuildFrom _ _

theorem Reloaded.slotsExact (loaded : inner.Reloaded reloaded limits order)
    (walks : order.Walks inner) (capped : (concurrencyLimits limits).anyCapEnabled = true) :
    reloaded.roster.SlotsExact := by
  intro key
  have counted := countValues_eq_length walks.loadedRecords
    fun record => holdsRunningSlot record.status && (slotInfoFor record).counted key
  unfold slotCount
  rw [show reloaded.roster.concurrency = inner.rebuiltLimiter limits order from loaded.concurrency,
      show reloaded.roster.records = inner.records from loaded.records, counted, rebuiltLimiter,
      counter_rebuildFrom capped, List.filter_map, List.length_map, List.filter_filter]
  simp only [Function.comp_def, Bool.and_comm]

end Inner

namespace restartingStore

variable {env : StoreEnv} {inner : Inner}

theorem slots (reached : (restartingStore env).Reachable RestartOp.KeepsCaps inner) :
    (inner.roster.Capped → inner.roster.SlotsExact) ∧ inner.roster.WithinCaps := by
  refine (invariant (fun roster => (roster.Capped → roster.SlotsExact) ∧ roster.WithinCaps)
    ?_ ?_ ?_ reached).2
  · intro limits
    exact ⟨fun _ key => by cases key <;> rfl,
      fun _ _ key cap _ => by cases key <;> exact Nat.zero_le cap.val⟩
  · intro before op after _ ⟨precise, within⟩ _ move
    cases move with
    | opened _ _ _ _ opens =>
      refine ⟨fun capped => ?_,
        within.of_counters (by rw [opens.slots]) fun key => by rw [opens.slots]⟩
      rw [Roster.Capped, opens.slots] at capped
      exact (precise capped).opens opens
    | moved steps =>
      induction steps with
      | refl => exact ⟨precise, within⟩
      | tail _ last ih =>
        refine ⟨fun capped => (ih.1 ?_).step last, ih.2.step last⟩
        rwa [Roster.Capped, ← last.limiterLimits]
  · intro before reloaded limits order _ ⟨precise, within⟩ keeps walks loaded
    have exactAfter : (concurrencyLimits limits).anyCapEnabled = true →
        reloaded.roster.SlotsExact := (loaded.slotsExact walks)
    refine ⟨?_, ?_⟩
    · rintro ⟨configured, same, capped⟩
      rw [show reloaded.roster.concurrency.limits = _ from loaded.limiterLimits] at same
      cases same
      exact exactAfter capped
    · intro configured same key cap capped
      rw [show reloaded.roster.concurrency.limits = _ from loaded.limiterLimits] at same
      cases same
      have enabled := anyCapEnabled_of_capOf capped
      -- Before and after, the counter is the number of the same runs.
      have recounted : reloaded.roster.concurrency.counter key =
          before.roster.concurrency.counter key := by
        rw [exactAfter enabled key, precise ⟨_, keeps, enabled⟩ key, slotCount,
          show reloaded.roster.records = before.roster.records from loaded.records]
        rfl
      rw [recounted]
      exact within _ keeps key cap capped

/-- In a store with a cap, every counter is the number of runs that hold a runner under
its key, no counter is above its cap, and a restart lets the same runs be claimed. -/
theorem concurrency_caps_exact (env : StoreEnv) {inner : Inner} {caps : ConcurrencyLimits}
    (reached : (restartingStore env).Reachable RestartOp.KeepsCaps inner)
    (configured : inner.concurrency.limits = some caps) (capped : caps.anyCapEnabled = true) :
    (∀ key, inner.concurrency.counter key = inner.records.countValues fun record =>
      holdsRunningSlot record.status && record.runsUnder key) ∧
    (∀ key cap, caps.capOf key = some cap → inner.concurrency.counter key ≤ cap.val) ∧
    ∀ limits order, order.Walks inner → concurrencyLimits limits = caps →
      ∃ reloaded, inner.reload limits order = .ok reloaded ∧
        ∀ info, reloaded.concurrency.canClaim info = inner.concurrency.canClaim info := by
  obtain ⟨precise, within⟩ := slots reached
  have counters := precise ⟨caps, configured, capped⟩
  refine ⟨fun key => ?_, within caps configured, ?_⟩
  · simp only [← counted_slotInfoFor]
    exact counters key
  rintro limits _ walks rfl
  obtain ⟨reloaded, loaded, facts⟩ := reload_of_sound (sound reached) walks limits
  refine ⟨reloaded, loaded, fun info => ?_⟩
  have recounted := facts.slotsExact walks capped
  have same : ∀ key, reloaded.concurrency.counter key = inner.concurrency.counter key := by
    intro key
    rw [show reloaded.concurrency.counter key = _ from recounted key, slotCount,
      show reloaded.roster.records = inner.records from facts.records]
    exact (counters key).symm
  rw [Bool.eq_iff_iff, canClaim_iff facts.limiterLimits, canClaim_iff configured]
  simp only [same]

/-! ## A full counter -/

/-- One run at a time for every user. -/
def oneRunPerUser : InMemoryTurnStateStoreLimits :=
  { InMemoryTurnStateStoreLimits.default with maxConcurrentRunsPerUser := some ⟨1, by decide⟩ }

/-- The first submission in the hands of a runner. -/
def busyUserStore : Inner :=
  (StoreOp.claimNextRun 0 ⟨⟨7⟩, ⟨8⟩, none⟩).apply turnStore.sampleEnv
    (cappedSubmission.apply turnStore.sampleEnv (.withLimits oneRunPerUser))

theorem busyUserStore_reachable :
    (restartingStore turnStore.sampleEnv).Reachable RestartOp.KeepsCaps busyUserStore := by
  refine reachable_call (reachable_call (.start ⟨oneRunPerUser, rfl⟩) cappedSubmission trivial
    (fun _ _ _ _ => get_empty _) trivial) _ trivial ?_ trivial
  decide

theorem busy_user_counted : busyUserStore.concurrency.counter (.user (⟨"tenant"⟩, ⟨"user"⟩)) = 1 ∧
      busyUserStore.concurrency.counter (.user (⟨"tenant"⟩, ⟨"user"⟩)) =
        (busyUserStore.records.countValues fun record => holdsRunningSlot record.status &&
          record.runsUnder (.user (⟨"tenant"⟩, ⟨"user"⟩))) ∧
      busyUserStore.concurrency.counter (.user (⟨"tenant"⟩, ⟨"user"⟩)) ≤ 1 := by
  have facts := concurrency_caps_exact turnStore.sampleEnv busyUserStore_reachable rfl rfl
  exact ⟨by decide, facts.1 _, facts.2.1 (.user _) ⟨1, by decide⟩ rfl⟩

end restartingStore

/-! ## The queue of waiting runs -/

def ConcurrencyLimiter.Uncapped (limiter : ConcurrencyLimiter) : Prop :=
  ∀ limits, limiter.limits = some limits → limits.anyCapEnabled = false

theorem ConcurrencyLimiter.canClaim_of_uncapped {limiter : ConcurrencyLimiter}
    (uncapped : limiter.Uncapped) (info : RunSlotInfo) : limiter.canClaim info = true := by
  cases configured : limiter.limits with
  | none =>
    unfold canClaim
    rw [configured]
    cases userKeyFrom info <;> rcases info.productContext with _ | _ | _ <;> rfl
  | some limits =>
    rw [canClaim_iff configured]
    intro _ _ _ capped
    have enabled := ConcurrencyLimits.anyCapEnabled_of_capOf capped
    rw [uncapped limits configured] at enabled
    cases enabled

namespace Inner

/-- What the queue promises the runners. -/
structure ServesQueue (env : StoreEnv) (inner : Inner) : Prop where
  once : ∀ runId record, inner.records.get runId = some record → record.status = .queued →
    inner.queuedRuns.count runId = 1
  onlyQueued : ∀ runId ∈ inner.queuedRuns, ∃ record, inner.records.get runId = some record ∧
    record.status = .queued
  claimed : inner.concurrency.Uncapped → ∀ now request, request.scopeFilter = none →
    (∃ runId record, inner.records.get runId = some record ∧ record.status = .queued) →
    ∃ run, (inner.claimMatchingQueuedRun env now request).1 = .ok (some run)

theorem servesQueue_of_orderly (env : StoreEnv) {inner : Inner}
    (orderly : inner.roster.Orderly) : inner.ServesQueue env := by
  have once : ∀ runId record, inner.records.get runId = some record → record.status = .queued →
      inner.queuedRuns.count runId = 1 := by
    intro runId record found queued
    have counted := orderly.count_of_get found
    rwa [RunRecord.isQueued, decide_eq_true queued, Bool.toNat_true] at counted
  refine ⟨once, fun runId => orderly.queued_of_mem, ?_⟩
  rintro uncapped _ _ unfiltered ⟨runId, record, found, queued⟩
  have listed : runId ∈ inner.queuedRuns := by
    rw [← List.count_pos_iff, once runId record found queued]
    exact Nat.one_pos
  cases queue : inner.queuedRuns with
  | nil =>
    rw [queue] at listed
    cases listed
  | cons head rest =>
    have first : head ∈ inner.queuedRuns := by
      rw [queue]
      exact List.mem_cons_self
    obtain ⟨first, foundFirst, waits⟩ := orderly.queued_of_mem first
    have foundFirst : inner.records.get head = some first := foundFirst
    -- Without filter and caps the head of the queue is taken.
    have popped : inner.popMatchingQueuedRun none =
        (some head, { inner with queuedRuns := rest }) := by
      rw [popMatchingQueuedRun, queue, List.length_cons, popMatchingQueuedRunLoop, queue]
      dsimp only
      rw [foundFirst]
      dsimp only
      rw [if_neg (not_not.mpr waits), ConcurrencyLimiter.canClaim_of_uncapped uncapped _]
      rfl
    unfold claimMatchingQueuedRun
    rw [unfiltered, popped]
    dsimp only
    rw [foundFirst]
    exact ⟨_, rfl⟩

end Inner

namespace restartingStore

/-- No queued run is lost or doubled, before and after a restart. -/
theorem queue_serves_every_queued_run (env : StoreEnv) {inner : Inner}
    (reached : (restartingStore env).Reachable System.anyStep inner) :
    inner.ServesQueue env ∧ ∀ limits order, order.Walks inner →
      ∃ reloaded, inner.reload limits order = .ok reloaded ∧ reloaded.ServesQueue env := by
  have soundHere := sound reached
  refine ⟨servesQueue_of_orderly env soundHere.orderly, ?_⟩
  intro limits order walks
  obtain ⟨reloaded, loaded, facts⟩ := reload_of_sound soundHere walks limits
  exact ⟨reloaded, loaded, servesQueue_of_orderly env (facts.sound soundHere).orderly⟩

/-- The run a capped submission left in the queue is claimed. -/
theorem queue_serves_first_submission : cappedStore.ServesQueue turnStore.sampleEnv ∧
      ∃ run, (cappedStore.claimMatchingQueuedRun turnStore.sampleEnv 0 ⟨⟨7⟩, ⟨8⟩, none⟩).1 =
        .ok (some run) := by
  have serves := (queue_serves_every_queued_run turnStore.sampleEnv
    (@cappedStore_reachable System.anyStep trivial)).1
  refine ⟨serves, serves.claimed ?_ 0 _ rfl ⟨⟨1⟩, _, rfl, rfl⟩⟩
  intro limits configured
  cases configured
  rfl

end restartingStore

end Ironclaw.Turns
