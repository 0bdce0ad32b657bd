import Ironclaw.Lib.Retention
import Ironclaw.Turns.Locks
import Ironclaw.Turns.Memory

/-!
# Concurrent submissions

Calls of `submit_turn` run side by side and with every other operation.  A call holds
the store's mutex only inside its critical sections and may be dropped by its caller
where it waits.  While the result of a key is kept for replay, the calls with that key
create one turn and one run at most and agree on them.
-/

namespace Ironclaw.Turns

open Lib Function Turns.Inner Table Finset

/-! ## Calls -/

/-- Where a call of `submit_turn` stands while it does not hold the mutex. -/
inductive SubmitPhase where
  /-- In `wait_for_or_claim_submit_idempotency`, before its first round or waiting. -/
  | claiming
  | claimed
  /-- Let through by admission; the run profile is being resolved. -/
  | admitted
  /-- The result is fixed and the `SubmitInFlightGuard` is still held. -/
  | leaving (result : Except TurnError SubmitTurnResponse)
  | returned (result : Except TurnError SubmitTurnResponse)
  | abandoned

def SubmitPhase.outcome : SubmitPhase → Option (Except TurnError SubmitTurnResponse)
  | .leaving result | .returned result => some result
  | _ => none

structure SubmitCall where
  request : SubmitTurnRequest
  phase : SubmitPhase

namespace SubmitCall

def key (call : SubmitCall) : SubmitIdempotencyKey :=
  ⟨call.request.scope, call.request.idempotencyKey⟩

/-- The phase after a critical section: the call is on its way out once it has a result. -/
def afterSection (next : SubmitPhase) (left : SubmitResult × Inner) : SubmitPhase × Inner :=
  (left.1.elim next .leaving, left.2)

/-- Run a call to the next point where it gives the mutex up. -/
def advance (env : StoreEnv) (context : CallContext) (call : SubmitCall) (inner : Inner) :
    SubmitPhase × Inner :=
  match call.phase with
  | .claiming =>
    match inner.claimSubmitIdempotency call.key with
    | (.replay result, inner) => (.returned result, inner)
    | (.waiting, inner) => (.claiming, inner)
    | (.claimed, inner) => (.claimed, inner)
  | .claimed =>
    if call.request.parentRunId.isSome ∨ call.request.subagentDepth ≠ 0 ∨
        call.request.spawnTreeRootRunId.isSome then
      afterSection .claimed (inner.refuseLineage call.key call.request.receivedAt)
    else afterSection .admitted (inner.submitAdmission context call.key call.request.receivedAt)
  | .admitted => afterSection .admitted (inner.submitCommit env context call.key call.request)
  | .leaving result => (.returned result, inner.clearInFlight call.key)
  | .returned result => (.returned result, inner)
  | .abandoned => (.abandoned, inner)

/-- The caller drops the call; a call with a claimed slot drops its guard. -/
def abandon (call : SubmitCall) (inner : Inner) : SubmitPhase × Inner :=
  match call.phase with
  | .claiming => (.abandoned, inner)
  | .claimed | .admitted => (.abandoned, inner.clearInFlight call.key)
  | phase => (phase, inner)

end SubmitCall

/-! ## The race -/

structure SubmitRace where
  store : Inner
  calls : Table Nat SubmitCall

inductive RaceLabel where
  | start (call : Nat) (request : SubmitTurnRequest)
  | advance (call : Nat) (context : CallContext)
  | abandon (call : Nat)
  /-- Any other operation, or a section of a child submission. -/
  | other (op : StoreOp)

namespace SubmitRace

def next (env : StoreEnv) (race : SubmitRace) : RaceLabel → SubmitRace
  | .start call request =>
    if race.calls.containsKey call then race
    else { race with calls := race.calls.insert call ⟨request, .claiming⟩ }
  | .advance call context =>
    match race.calls.get call with
    | none => race
    | some current =>
      let result := current.advance env context race.store
      ⟨result.2, race.calls.insert call { current with phase := result.1 }⟩
  | .abandon call =>
    match race.calls.get call with
    | none => race
    | some current =>
      let result := current.abandon race.store
      ⟨result.2, race.calls.insert call { current with phase := result.1 }⟩
  | .other op => { race with store := op.apply env race.store }

/-- The result of a call that carries the key. -/
def outcome (race : SubmitRace) (key : SubmitIdempotencyKey) (call : Nat) :
    Option (Except TurnError SubmitTurnResponse) :=
  (race.calls.get call).bind fun current =>
    if current.key = key then current.phase.outcome else none

/-- The step runs a section of a submission with the key. -/
def submits (race : SubmitRace) (key : SubmitIdempotencyKey) : RaceLabel → Bool
  | .advance call _ => (race.calls.get call).any fun current => decide (current.key = key)
  | .other op => decide (op.recallKey = some (.submit key))
  | _ => false

end SubmitRace

open SubmitRace

inductive CreatedKind where
  | turn
  | run

/-- How many turns and runs are there after a step that were not there before it. -/
def Inner.createdIn (before after : Inner) : CreatedKind → Nat
  | .turn => (after.turns.keys \ before.turns.keys).card
  | .run => (after.records.keys \ before.records.keys).card

namespace SubmitRace

def decides (race after : SubmitRace) (key : SubmitIdempotencyKey) : RaceLabel → Option Nat
  | .advance call _ =>
    if (race.outcome key call).isNone && (after.outcome key call).isSome then some call else none
  | _ => none

/-- The books of a key: a period lasts while the key has a result for replay. -/
def book (env : StoreEnv) (key : SubmitIdempotencyKey) (race : SubmitRace) (label : RaceLabel)
    (retention : Retention Nat CreatedKind) : Retention Nat CreatedKind :=
  let after := race.next env label
  retention.record (after.store.submitIdempotency.get key).isSome
    (if race.submits key label then race.store.createdIn after.store else fun _ => 0)
    (race.decides after key label)

end SubmitRace

def submitRace (env : StoreEnv) : System SubmitRace RaceLabel where
  init race := (∃ limits, race.store = withLimits limits) ∧ race.calls = .empty
  step before label after :=
    (∀ op, label = .other op → op.Admissible before.store) ∧ after = before.next env label

/-! ## Sections -/

namespace Inner

/-- A step of the store as seen from a key. -/
abbrev Attempts (inner : Inner) (key : SubmitIdempotencyKey) (answer : SubmitResult)
    (after : Inner) : Prop :=
  Retention.Attempt (inner.submitIdempotency.get key) (after.submitIdempotency.get key)
    (inner.createdIn after) answer

variable {inner after : Inner} {key : SubmitIdempotencyKey}

theorem createdIn_of_roster (same : after.roster = inner.roster) (kind : CreatedKind) :
    inner.createdIn after kind = 0 := by
  have turns : after.turns = inner.turns := congrArg Roster.turns same
  have records : after.records = inner.records := congrArg (fun roster => roster.records) same
  cases kind with
  | turn => rw [createdIn, turns, Finset.sdiff_self, Finset.card_empty]
  | run => rw [createdIn, records, Finset.sdiff_self, Finset.card_empty]

theorem createdIn_of_insert {turn : TurnRecord} {record : RunRecord}
    (turns : after.turns = inner.turns.insert turn.turnId turn)
    (records : after.records = inner.records.insert record.runId record) (kind : CreatedKind) :
    inner.createdIn after kind ≤ 1 := by
  have atMost : ∀ {κ : Type} [DecidableEq κ] (added : κ) (keys : Finset κ),
      (insert added keys \ keys).card ≤ 1 := by
    intro κ _ added _
    refine (card_le_card ?_).trans (card_singleton added).le
    intro _ member
    rw [mem_sdiff, mem_insert] at member
    exact mem_singleton.mpr (member.1.resolve_right member.2)
  cases kind with
  | turn =>
    rw [createdIn, turns, keys_insert]
    exact atMost _ _
  | run =>
    rw [createdIn, records, keys_insert]
    exact atMost _ _

theorem attempt_of_recalls {memory : ReplayMemory} {key? : Option RecallKey}
    (recalls : inner.Recalls memory key?) (key : SubmitIdempotencyKey) :
    Retention.Attempt (inner.submitIdempotency.get key) (memory.submitIdempotency.get key)
      (fun _ : CreatedKind => 0) none := by
  cases held : inner.submitIdempotency.get key with
  | none => exact .refused rfl (fun _ => rfl) fun _ => nofun
  | some result =>
    refine .replayed result rfl ?_ (fun _ => rfl) fun _ => nofun
    rcases recalls.submit_cases key with kept | dropped | ⟨_, absent, _⟩
    · exact .inl (kept.trans held)
    · exact .inr dropped
    · rw [held] at absent
      cases absent

theorem attempts_idle (memory : after.memory = inner.memory) (same : after.roster = inner.roster)
    (key : SubmitIdempotencyKey) : inner.Attempts key none after := by
  have idle := attempt_of_recalls (@Recalls.kept inner _ none memory) key
  have created : inner.createdIn after = fun _ => 0 := funext (createdIn_of_roster same)
  rw [← created] at idle
  exact idle

theorem decideSubmit_attempts {middle : Inner} (absent : inner.submitIdempotency.get key = none)
    {turn : TurnRecord} {record : RunRecord}
    (turns : middle.turns = inner.turns.insert turn.turnId turn)
    (records : middle.records = inner.records.insert record.runId record)
    (response : SubmitTurnResponse) (createdAt : TurnTimestamp) :
    inner.Attempts key (middle.decideSubmit key (.ok response) createdAt).1
      (middle.decideSubmit key (.ok response) createdAt).2 := by
  refine .accepted response absent ?_ (createdIn_of_insert turns records) ?_
  · exact (get_dropOldest _ (middle.submitIdempotency.insert key (.ok response)) [] key).imp_left
      (·.trans (get_insert_self ..))
  · rintro _ ⟨⟩
    rfl

theorem SectionEnd.attempts {commit? : Option Commit} {forks : Prop}
    {ended : SubmitResult × Inner} (ends : SectionEnd inner key commit? forks ended) :
    inner.Attempts key ended.1 ended.2 := by
  cases ends with
  | decided held =>
    refine .replayed _ held (.inl held) (createdIn_of_roster rfl) ?_
    rintro given ⟨⟩
    rfl
  | passed => exact attempts_idle rfl rfl key
  | refused trees kept absent =>
    refine .refused absent (createdIn_of_roster (roster_refuseSubmit (inner.withTrees trees) ..)) ?_
    intro _ answered
    rw [refuseSubmit_fst] at answered
    cases answered
  | @accepted trees kept absent context request runId profile reserved route given checked
      admitted =>
      obtain ⟨rfl, _⟩ := spec_of_reserveAdmission admitted
      exact @decideSubmit_attempts _ _ _ absent (turnRecordOf request context.freshTurnId)
        (queuedRecord runId request context.freshTurnId profile route inner.cursorAfter)
        rfl rfl _ _

end Inner

open Turns.Inner in
theorem StoreOp.attempt (env : StoreEnv) (inner : Inner) (op : StoreOp)
    (key : SubmitIdempotencyKey) : Retention.Attempt (inner.submitIdempotency.get key)
      ((op.apply env inner).submitIdempotency.get key)
      (if op.recallKey = some (.submit key) then inner.createdIn (op.apply env inner)
        else fun _ => 0) none := by
  split
  next own =>
    cases op with
    | refuseLineage _ receivedAt =>
      cases own
      exact (refuseLineage_ends inner key receivedAt).attempts.unanswered
    | submitAdmission context _ receivedAt =>
      cases own
      exact (submitAdmission_ends inner key context receivedAt).attempts.unanswered
    | submitCommit context _ request =>
      cases own
      exact (submitCommit_ends inner key env context request).attempts.unanswered
    | submitChildLineage _ request =>
      cases own
      exact (submitChildLineage_ends inner key request).attempts.unanswered
    | submitChildCommit context _ request =>
      cases own
      exact (submitChildCommit_ends inner key context request).attempts.unanswered
    | _ => cases own
  · exact attempt_of_recalls (op.apply_recalls env inner) key

namespace SubmitCall

variable (env : StoreEnv) (context : CallContext) (call : SubmitCall) (inner : Inner)

theorem outcome_afterSection {next : SubmitPhase} (undecided : next.outcome = none)
    (left : SubmitResult × Inner) : (afterSection next left).1.outcome = left.1 := by
  obtain ⟨answer, _⟩ := left
  cases answer with
  | none => exact undecided
  | some result => rfl

theorem advance_attempts : ∃ answer,
    inner.Attempts call.key answer (call.advance env context inner).2 ∧
      (call.phase.outcome = none → (call.advance env context inner).1.outcome = answer) ∧
      ∀ result, call.phase.outcome = some result →
        (call.advance env context inner).1.outcome = some result := by
  unfold advance
  split
  next phase =>
    rw [phase, claimSubmitIdempotency]
    cases held : inner.submitIdempotency.get call.key with
    | some result =>
      refine ⟨some result, .replayed result held (.inl held)
        (createdIn_of_roster rfl) ?_, fun _ => rfl, fun _ => nofun⟩
      rintro _ ⟨⟩
      rfl
    | none =>
      split_ifs <;> exact ⟨none, attempts_idle rfl rfl _, fun _ => rfl, fun _ => nofun⟩
  next phase =>
    rw [phase]
    split
    · exact ⟨_, (refuseLineage_ends _ _ _).attempts, fun _ => outcome_afterSection rfl _,
        fun _ => nofun⟩
    · exact ⟨_, (submitAdmission_ends _ _ _ _).attempts, fun _ => outcome_afterSection rfl _,
        fun _ => nofun⟩
  next phase =>
    rw [phase]
    exact ⟨_, (submitCommit_ends _ _ env _ _).attempts, fun _ => outcome_afterSection rfl _,
      fun _ => nofun⟩
  iterate 2
    next phase =>
      rw [phase]
      exact ⟨none, attempts_idle rfl rfl _, nofun, fun _ => id⟩
  next phase =>
    rw [phase]
    exact ⟨none, attempts_idle rfl rfl _, fun _ => rfl, fun _ => nofun⟩

theorem advance_recalls : ∃ key?, inner.Recalls (call.advance env context inner).2.memory key? := by
  unfold advance
  split
  · rw [claimSubmitIdempotency]
    cases inner.submitIdempotency.get call.key with
    | some => exact ⟨none, .kept rfl⟩
    | none => split_ifs <;> exact ⟨none, .kept rfl⟩
  · split
    · exact ⟨_, (StoreOp.refuseLineage call.key call.request.receivedAt).apply_recalls env inner⟩
    · exact ⟨_, (StoreOp.submitAdmission context call.key
        call.request.receivedAt).apply_recalls env inner⟩
  · exact ⟨_, (StoreOp.submitCommit context call.key call.request).apply_recalls env inner⟩
  · exact ⟨none, .kept rfl⟩
  · exact ⟨none, .kept rfl⟩
  · exact ⟨none, .kept rfl⟩

theorem abandon_spec : (call.abandon inner).2.memory = inner.memory ∧
      (call.abandon inner).1.outcome = call.phase.outcome := by
  unfold abandon
  cases phase : call.phase <;> exact ⟨rfl, rfl⟩

end SubmitCall

/-! ## Steps of the race -/

namespace SubmitRace

variable (env : StoreEnv) (race : SubmitRace) (key : SubmitIdempotencyKey)

theorem outcome_insert (store : Inner) (call : Nat) (current : SubmitCall) :
    (⟨store, race.calls.insert call current⟩ : SubmitRace).outcome key =
      update (race.outcome key) call
        (if current.key = key then current.phase.outcome else none) := by
  funext other
  unfold outcome
  rw [get_insert]
  split
  next same =>
    rw [same, update_self]
    rfl
  next different => rw [update_of_ne different]

variable {call : Nat} {current : SubmitCall} (label : RaceLabel)

theorem outcome_of_get (found : race.calls.get call = some current) :
    race.outcome key call = if current.key = key then current.phase.outcome else none := by
  unfold outcome
  rw [found]
  rfl

/-- A step to `after` is an attempt for the key, and its answer goes to the call it
decides. -/
def AttemptsTo (label : RaceLabel) (after : SubmitRace) : Prop :=
  ∃ answer, Retention.Attempt (race.store.submitIdempotency.get key)
        (after.store.submitIdempotency.get key)
        (if race.submits key label then race.store.createdIn after.store else fun _ => 0) answer ∧
      after.outcome key = Retention.settle (race.outcome key) answer (race.decides after key label)

variable {race key}

/-- A step that runs no section with the key and decides no call with it. -/
theorem attemptsTo_of_idle {label : RaceLabel} {after : SubmitRace}
    (recalls : ∃ key?, race.store.Recalls after.store.memory key?)
    (other : race.submits key label = false) (undecided : race.decides after key label = none)
    (same : after.outcome key = race.outcome key) : race.AttemptsTo key label after := by
  refine ⟨none, ?_, ?_⟩
  · rw [other]
    obtain ⟨_, recalls⟩ := recalls
    exact attempt_of_recalls recalls key
  · rw [undecided]
    exact same

theorem attemptsTo_start (call : Nat) (request : SubmitTurnRequest) :
    race.AttemptsTo key (.start call request) (race.next env (.start call request)) := by
  unfold next
  dsimp only
  split
  · exact attemptsTo_of_idle ⟨none, .kept rfl⟩ rfl rfl rfl
  next unused =>
    refine attemptsTo_of_idle ⟨none, .kept rfl⟩ rfl rfl ?_
    rw [outcome_insert, update_eq_self_iff, outcome, Option.not_isSome_iff_eq_none.mp unused]
    split <;> rfl

theorem attemptsTo_abandon (call : Nat) :
    race.AttemptsTo key (.abandon call) (race.next env (.abandon call)) := by
  unfold next
  dsimp only
  split
  · exact attemptsTo_of_idle ⟨none, .kept rfl⟩ rfl rfl rfl
  rename_i current found
  have spec := current.abandon_spec race.store
  refine attemptsTo_of_idle ⟨none, .kept spec.1⟩ rfl rfl ?_
  rw [outcome_insert, update_eq_self_iff, outcome_of_get race key found, ← spec.2]
  rfl

theorem attemptsTo_of_own (found : race.calls.get call = some current) (own : current.key = key)
    (context : CallContext) : race.AttemptsTo key (.advance call context)
      ⟨(current.advance env context race.store).2, race.calls.insert call
        { current with phase := (current.advance env context race.store).1 }⟩ := by
  obtain ⟨answer, attempt, answered, kept⟩ := current.advance_attempts env context race.store
  generalize current.advance env context race.store = result at attempt answered kept
  have before : race.outcome key call = current.phase.outcome := by
    rw [outcome_of_get race key found, if_pos own]
  have after : (⟨result.2, race.calls.insert call { current with phase := result.1 }⟩ :
      SubmitRace).outcome key = update (race.outcome key) call result.1.outcome := by
    rw [outcome_insert]
    exact congrArg _ (if_pos own)
  refine ⟨answer, ?_, ?_⟩
  · rw [submits, found, if_pos (by simpa using own)]
    exact own ▸ attempt
  · rw [decides, after, update_self, before]
    cases phase : current.phase.outcome with
    | some decided =>
      rw [kept decided phase, Option.isNone_some, Bool.false_and]
      exact update_eq_self_iff.mpr (phase ▸ before).symm
    | none =>
      rw [answered phase, Option.isNone_none, Bool.true_and]
      cases answer with
      | none => exact update_eq_self_iff.mpr (phase ▸ before).symm
      | some => rfl

theorem attemptsTo_of_other (found : race.calls.get call = some current) (other : current.key ≠ key)
    (context : CallContext) : race.AttemptsTo key (.advance call context)
      ⟨(current.advance env context race.store).2, race.calls.insert call
        { current with phase := (current.advance env context race.store).1 }⟩ := by
  have before : race.outcome key call = none := by
    rw [outcome_of_get race key found, if_neg other]
  have after : ∀ store phase, (⟨store, race.calls.insert call { current with phase }⟩ :
      SubmitRace).outcome key = race.outcome key := by
    intro _ _
    rw [outcome_insert, update_eq_self_iff, before]
    exact if_neg other
  refine attemptsTo_of_idle (current.advance_recalls env context race.store) ?_ ?_ (after _ _)
  · rw [submits, found]
    exact decide_eq_false other
  · rw [decides, after, before]
    rfl

theorem attemptsTo_advance (call : Nat) (context : CallContext) :
    race.AttemptsTo key (.advance call context) (race.next env (.advance call context)) := by
  unfold next
  dsimp only
  split
  next absent =>
    refine attemptsTo_of_idle ⟨none, .kept rfl⟩ ?_ ?_ rfl
    · rw [submits, absent]
      rfl
    · rw [decides, outcome, absent]
      rfl
  next current found =>
    by_cases own : current.key = key
    · exact attemptsTo_of_own env found own context
    · exact attemptsTo_of_other env found own context

theorem attemptsTo_next : race.AttemptsTo key label (race.next env label) := by
  cases label with
  | start => exact attemptsTo_start env _ _
  | advance => exact attemptsTo_advance env _ _
  | abandon => exact attemptsTo_abandon env _
  | other op =>
    refine ⟨none, ?_, rfl⟩
    have attempt := op.attempt env race.store key
    simp only [submits, decide_eq_true_eq]
    exact attempt

/-- The books of the key are consistent and no busy thread is remembered. -/
structure Sound (race : SubmitRace) (key : SubmitIdempotencyKey)
    (retention : Retention Nat CreatedKind) : Prop where
  consistent : retention.Consistent (race.store.submitIdempotency.get key) (race.outcome key)
  decided : ∀ busy, race.store.submitIdempotency.get key ≠ some (.error (.threadBusy busy))

/-- The store moves by a step of its own or a part of one. -/
theorem next_recalls : ∃ key?, race.store.Recalls (race.next env label).store.memory key? := by
  cases label with
  | start call =>
    dsimp only [SubmitRace.next]
    split_ifs <;> exact ⟨none, .kept rfl⟩
  | advance call context =>
    dsimp only [SubmitRace.next]
    cases race.calls.get call with
    | none => exact ⟨none, .kept rfl⟩
    | some current => exact current.advance_recalls env context race.store
  | abandon call =>
    dsimp only [SubmitRace.next]
    cases race.calls.get call with
    | none => exact ⟨none, .kept rfl⟩
    | some current => exact ⟨none, .kept (current.abandon_spec race.store).1⟩
  | other op => exact ⟨_, op.apply_recalls env race.store⟩

theorem Sound.next {retention : Retention Nat CreatedKind} (sound : race.Sound key retention)
    (label : RaceLabel) : (race.next env label).Sound key (book env key race label retention) := by
  obtain ⟨_, attempt, settled⟩ := @attemptsTo_next env race key label
  refine ⟨?_, ?_⟩
  · rw [settled]
    exact sound.consistent.record attempt _
  · intro busy remembered
    obtain ⟨_, recalls⟩ := @next_recalls env race label
    rcases recalls.submit_cases key with kept | dropped | ⟨_, _, stored, decided⟩
    · exact sound.decided busy (kept.symm.trans remembered)
    · cases dropped.symm.trans remembered
    · cases stored.symm.trans remembered
      exact decided busy rfl

end SubmitRace

/-- While the result of a key is kept, the calls with the key create one turn and one run
at most and agree on them, and a busy thread is never remembered. -/
theorem submitRace.concurrent_submissions_agree (env : StoreEnv) (key : SubmitIdempotencyKey)
    {state : SubmitRace × Retention Nat CreatedKind}
    (reached : ((submitRace env).withHistory .start (book env key)).Reachable
      System.anyStep state) :
    (∀ period, state.2.created .turn period ≤ 1 ∧ state.2.created .run period ≤ 1) ∧
      (∀ first second firstResponse secondResponse,
        state.1.outcome key first = some (.ok firstResponse) →
        state.1.outcome key second = some (.ok secondResponse) →
        state.2.decidedIn first = state.2.decidedIn second →
        firstResponse.turnId = secondResponse.turnId ∧ firstResponse.runId = secondResponse.runId) ∧
      ∀ busy, state.1.store.submitIdempotency.get key ≠ some (.error (.threadBusy busy)) := by
  have sound : state.1.Sound key state.2 := by
    refine reached.invariant (fun state => state.1.Sound key state.2) ?_ ?_
    · rintro ⟨⟨_, calls⟩, retention⟩ ⟨⟨⟨_, fresh⟩, idle⟩, booked⟩
      cases fresh
      cases idle
      cases booked
      exact ⟨Retention.consistent_start, nofun⟩
    · rintro ⟨_, _⟩ label ⟨_, _⟩ sound _ ⟨⟨_, rfl⟩, rfl⟩
      exact sound.next env label
  refine ⟨fun period => ⟨sound.consistent.once _ _, sound.consistent.once _ _⟩, ?_,
    sound.decided⟩
  intro first second firstResponse secondResponse firstDecided secondDecided together
  cases sound.consistent.agree first second _ _ firstDecided secondDecided together
  exact ⟨rfl, rfl⟩

/-! ## Two calls with one key -/

namespace submitRace

open turnStore (sampleContext sampleEnv sampleRequest sampleScope)

def racingRequest : SubmitTurnRequest := sampleRequest (sampleScope .actorFallback) "first"

/-- The first call creates the run; the second waits for it and is answered from the
replay table. -/
def racingSteps : List RaceLabel :=
  [.start 0 racingRequest, .start 1 racingRequest,
    .advance 0 sampleContext, .advance 1 sampleContext,
    .advance 0 sampleContext, .advance 0 sampleContext,
    .advance 1 { sampleContext with freshTurnId := ⟨2⟩, freshRunId := ⟨2⟩ }]

def racingKey : SubmitIdempotencyKey := ⟨sampleScope .actorFallback, ⟨"first"⟩⟩

def follow (env : StoreEnv) (key : SubmitIdempotencyKey)
    (state : SubmitRace × Retention Nat CreatedKind) (label : RaceLabel) :
    SubmitRace × Retention Nat CreatedKind :=
  (state.1.next env label, book env key state.1 label state.2)

def racedState : SubmitRace × Retention Nat CreatedKind :=
  racingSteps.foldl (follow sampleEnv racingKey) (⟨.withLimits .default, .empty⟩, .start)

theorem racing_calls_agree : racedState.2.created .run (racedState.2.decidedIn 0) = 1 ∧
      ∃ first second, racedState.1.outcome racingKey 0 = some (.ok first) ∧
        racedState.1.outcome racingKey 1 = some (.ok second) ∧
        first.turnId = second.turnId ∧ first.runId = second.runId := by
  have started : ((submitRace sampleEnv).withHistory .start (book
      sampleEnv racingKey)).Reachable System.anyStep
        (⟨.withLimits .default, .empty⟩, .start) := .start ⟨⟨⟨.default, rfl⟩, rfl⟩, rfl⟩
  -- Steps of calls are possible in every state.
  have reached := @System.Reachable.along _ _ _ _ _ _ _ (follow sampleEnv racingKey)
    started id racingSteps (by simp [racingSteps, System.AllowedAlong])
    fun _ _ isCall => ⟨trivial, ⟨isCall, rfl⟩, rfl⟩
  have facts := concurrent_submissions_agree sampleEnv racingKey reached
  exact ⟨rfl, _, _, rfl, rfl, facts.2.1 0 1 _ _ rfl rfl rfl⟩

end submitRace

end Ironclaw.Turns
