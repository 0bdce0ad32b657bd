import Ironclaw.Lib.System
import Ironclaw.Resources.State

/-!
# What an operation does

The four operations of the governor as one function of the state, and their effect as a
change of the entries of the accounts they touch and of one record.  Everything about
whole runs is derived from these effects.
-/

namespace Ironclaw.Resources

open HostApi Lib Table ResourceState ReservationRecord
open ResourceAccount (cascade cascade_nodup)

variable [platform : Platform]

/-! ## Entries -/

namespace AccountParts

variable (parts : AccountParts) (now : DateTime)

/-- The window of the account has ended, so that its usage no longer counts. -/
def expired : Bool :=
  match parts.limits with
  | none => false
  | some limits =>
    decide (limits.period ≠ .perInvocation) &&
      (parts.periodAnchor.map fun anchor => periodHasRolledOver anchor now).getD true

def windowEnd : Option DateTime := parts.limits.map fun limits => (periodBounds limits.period now).2

def advance : AccountParts :=
  if parts.expired now then
    { parts with usage := none, periodAnchor := parts.windowEnd now }
  else parts

variable (tally : ResourceTally)

def addHold : AccountParts :=
  { parts with reserved := some ((parts.reserved.getD .zero).addAssign tally) }

def dropHold : AccountParts :=
  { parts with reserved := some ((parts.reserved.getD .zero).subAssign tally) }

def addUsage : AccountParts :=
  { parts with usage := some ((parts.usage.getD .zero).addAssign tally) }

/-- The spent part of a closed reservation, if there is one. -/
def spend : Option ResourceUsage → AccountParts
  | none => parts
  | some actual => parts.addUsage (.fromUsage actual)

def setLimit (limits : ResourceLimits) (now : DateTime) : AccountParts where
  limits := some limits
  reserved := parts.reserved
  usage := if parts.limits.map ResourceLimits.period ≠ some limits.period then none
    else parts.usage
  periodAnchor := some (periodBounds limits.period now).2

@[simp] theorem advance_limits : (parts.advance now).limits = parts.limits := by
  unfold advance
  split <;> rfl

@[simp] theorem advance_reserved : (parts.advance now).reserved = parts.reserved := by
  unfold advance
  split <;> rfl

end AccountParts

namespace ResourceState

variable (tally : ResourceTally) (state : ResourceState) (id : ResourceReservationId)
    (record : ReservationRecord) (account : ResourceAccount) (limits : ResourceLimits)
    (now : DateTime)

@[simp] theorem parts_putRecord :
    (state.putRecord id record).parts account = state.parts account := rfl

@[simp] theorem reservations_putRecord :
    (state.putRecord id record).reservations = state.reservations.insert id record := rfl

@[simp] theorem parts_reserved :
    (state.parts account).reserved.getD .zero = state.reservedFor account := rfl

@[simp] theorem parts_usage : (state.parts account).usage.getD .zero = state.usageFor account := rfl

theorem parts_setLimit (other : ResourceAccount) :
    (setLimitInState state account limits now).parts other =
      if other = account then (state.parts other).setLimit limits now else state.parts other := by
  by_cases same : other = account
  · subst same
    rw [if_pos rfl]
    unfold setLimitInState
    dsimp only
    split
    next changed => simp [parts, AccountParts.setLimit, changed]
    next kept => simp [parts, AccountParts.setLimit, kept]
  · rw [if_neg same]
    unfold setLimitInState
    dsimp only
    split <;> simp [parts, get_insert, get_remove, same]

theorem parts_advance (state : ResourceState) (account other : ResourceAccount) :
    (advancePeriodIfRolledOver state account now).parts other =
      if other = account then (state.parts other).advance now else state.parts other := by
  unfold advancePeriodIfRolledOver AccountParts.advance AccountParts.expired
    AccountParts.windowEnd
  cases limited : state.limits.get account with
  | none =>
    by_cases same : other = account
    · subst same
      simp [parts, limited]
    · simp [same]
  | some limits =>
    by_cases same : other = account
    · subst same
      by_cases invocation : limits.period = .perInvocation
      · simp [parts, limited, invocation]
      by_cases rolled : ((state.periodAnchors.get other).map fun anchor =>
          periodHasRolledOver anchor now).getD true = true
      · simp [parts, limited, invocation, rolled]
      · simp [parts, limited, invocation, rolled]
    · simp only [same, if_false]
      split
      · rfl
      · split
        · simp [parts, get_insert, get_remove, same]
        · rfl

theorem parts_addHold (account other : ResourceAccount) :
    (state.addHold tally account).parts other =
      if other = account then (state.parts other).addHold tally else state.parts other := by
  by_cases same : other = account
  · subst same
    simp [addHold, AccountParts.addHold, parts, reservedFor]
  · simp [addHold, parts, get_insert, same]

theorem parts_dropHold (account other : ResourceAccount) :
    (state.dropHold tally account).parts other =
      if other = account then (state.parts other).dropHold tally else state.parts other := by
  by_cases same : other = account
  · subst same
    simp [dropHold, AccountParts.dropHold, parts, reservedFor]
  · simp [dropHold, parts, get_insert, same]

theorem parts_addUsage (account other : ResourceAccount) :
    (state.addUsage tally account).parts other =
      if other = account then (state.parts other).addUsage tally else state.parts other := by
  by_cases same : other = account
  · subst same
    simp [addUsage, AccountParts.addUsage, parts, usageFor]
  · simp [addUsage, parts, get_insert, same]

@[simp] theorem reservations_advance :
    (advancePeriodIfRolledOver state account now).reservations = state.reservations := by
  unfold advancePeriodIfRolledOver
  split
  · rfl
  dsimp only
  split
  · rfl
  · split <;> rfl

@[simp] theorem reservations_addHold (tally : ResourceTally) (account : ResourceAccount) :
    (state.addHold tally account).reservations = state.reservations :=
  rfl

@[simp] theorem reservations_setLimit :
    (setLimitInState state account limits now).reservations = state.reservations := by
  unfold setLimitInState
  dsimp only
  split <;> rfl

/-- The state with the expired windows of some accounts rolled over. -/
def rolledOver (state : ResourceState) (accounts : List ResourceAccount) (now : DateTime) :
    ResourceState :=
  accounts.foldl (fun state account => advancePeriodIfRolledOver state account now) state

theorem parts_rolledOver {accounts : List ResourceAccount} (nodup : accounts.Nodup) (now : DateTime)
    (account : ResourceAccount) : (state.rolledOver accounts now).parts account =
      if account ∈ accounts then (state.parts account).advance now else state.parts account :=
  view_foldl parts _ (fun _ entries => entries.advance now) (parts_advance now) nodup state account

@[simp] theorem reservations_rolledOver (accounts : List ResourceAccount) (now : DateTime) :
    (state.rolledOver accounts now).reservations = state.reservations :=
  foldl_keeps reservations _
    (fun state account => reservations_advance state account now) accounts state

end ResourceState

/-! ## Operations -/

inductive ResourceOp where
  | setLimit (account : ResourceAccount) (limits : ResourceLimits)
  | reserve (scope : ResourceScope) (estimate : ResourceEstimate) (id : ResourceReservationId)
  | reconcile (id : ResourceReservationId) (actual : ResourceUsage)
  | release (id : ResourceReservationId)

inductive GovernorAnswer where
  | limitSet
  | reserved (outcome : Except ResourceError ReservationOutcome)
  | closed (receipt : Except ResourceError ResourceReceipt)

def GovernorAnswer.isOk : GovernorAnswer → Bool
  | .limitSet => true
  | .reserved outcome => outcome.isOk
  | .closed receipt => receipt.isOk

def ResourceState.apply (state : ResourceState) (op : ResourceOp) (now : DateTime) :
    GovernorAnswer × ResourceState :=
  match op with
  | .setLimit account limits => (.limitSet, setLimitInState state account limits now)
  | .reserve scope estimate id =>
    let (outcome, after) := reserveWithOutcomeInState state scope estimate id now
    (.reserved outcome, after)
  | .reconcile id actual =>
    let (receipt, after) := reconcileInState state id actual now
    (.closed receipt, after)
  | .release id =>
    let (receipt, after) := releaseInState state id now
    (.closed receipt, after)

/-- The operation that closes a reservation, with what was spent if anything was. -/
def ResourceOp.closing (id : ResourceReservationId) : Option ResourceUsage → ResourceOp
  | none => .release id
  | some actual => .reconcile id actual

/-- The record of a closed reservation; what was spent is kept with it. -/
def ReservationRecord.close (record : ReservationRecord) : Option ResourceUsage → ReservationRecord
  | none => { record with status := .released }
  | some actual => { record with status := .reconciled, actual := some actual }

def ReservationRecord.receipt (record : ReservationRecord) (id : ResourceReservationId)
    (spent : Option ResourceUsage) : ResourceReceipt :=
  ⟨id, record.reservation.scope, (record.close spent).status, record.reservation.estimate, spent⟩

def ReservationRecord.closeAnswer (record : ReservationRecord) (id : ResourceReservationId)
    (spent : Option ResourceUsage) : Except ResourceError ResourceReceipt :=
  if record.status ≠ .active then .error (.reservationClosed id record.status)
  else
    match spent with
    | none => .ok (record.receipt id none)
    | some actual =>
      match validateUsage actual with
      | .error error => .error error
      | .ok () => .ok (record.receipt id (some actual))

variable {record : ReservationRecord} {id : ResourceReservationId}

theorem ReservationRecord.closeAnswer_ok {spent : Option ResourceUsage} {receipt : ResourceReceipt}
    (closes : record.closeAnswer id spent = .ok receipt) :
    record.status = .active ∧ (∀ actual ∈ spent, validateUsage actual = .ok ()) ∧
      record.receipt id spent = receipt := by
  unfold closeAnswer at closes
  split at closes
  · cases closes
  rename_i active
  refine ⟨not_not.mp active, ?_⟩
  split at closes
  · exact ⟨nofun, Except.ok.inj closes⟩
  split at closes
  · cases closes
  next actual _ valid =>
    exact ⟨fun other same => Option.some.inj same ▸ valid, Except.ok.inj closes⟩

/-- Whether the accounts of a request leave room for it once their windows are current. -/
def ResourceState.admits (state : ResourceState) (scope : ResourceScope)
    (estimate : ResourceEstimate) (now : DateTime) : Bool :=
  (evaluateCascade (state.rolledOver (cascade scope) now)
    (.fromEstimate estimate) (cascade scope) []).isOk

/-- The effect of an operation on the entries of the accounts and on the records. -/
inductive Effect (state : ResourceState) (now : DateTime) (after : ResourceState) :
    ResourceOp → Prop
  | nothing {op : ResourceOp} (same : after = state) : Effect state now after op
  | limit {account : ResourceAccount} {limits : ResourceLimits}
      (parts : ∀ other, after.parts other =
        if other = account then (state.parts other).setLimit limits now else state.parts other)
      (records : after.reservations = state.reservations) :
      Effect state now after (.setLimit account limits)
  | rolled {scope : ResourceScope} {estimate : ResourceEstimate} {id : ResourceReservationId}
      (parts : ∀ other, after.parts other =
        if other ∈ cascade scope then (state.parts other).advance now
        else state.parts other)
      (records : after.reservations = state.reservations) :
      Effect state now after (.reserve scope estimate id)
  | held {scope : ResourceScope} {estimate : ResourceEstimate} {id : ResourceReservationId}
      (fresh : state.reservations.get id = none)
      (valid : validateEstimate estimate = .ok ())
      (parts : ∀ other, after.parts other = if other ∈ cascade scope then
          ((state.parts other).advance now).addHold (.fromEstimate estimate) else state.parts other)
      (records : after.reservations =
        state.reservations.insert id (.opened ⟨id, scope, estimate⟩)) :
      Effect state now after (.reserve scope estimate id)
  | closed {id : ResourceReservationId} {record : ReservationRecord}
      {spent : Option ResourceUsage}
      (valid : ∀ actual ∈ spent, validateUsage actual = .ok ())
      (found : state.reservations.get id = some record) (active : record.status = .active)
      (parts : ∀ other, after.parts other = if other ∈ record.accounts then
          (((state.parts other).advance now).dropHold record.tally).spend spent
        else state.parts other)
      (records : after.reservations = state.reservations.insert id (record.close spent)) :
      Effect state now after (.closing id spent)

namespace ResourceState

def withHolds (state : ResourceState) (accounts : List ResourceAccount) (tally : ResourceTally) :
    ResourceState :=
  accounts.foldl (fun state account => state.addHold tally account) state

variable (state : ResourceState) (scope : ResourceScope) (estimate : ResourceEstimate)

theorem parts_withHolds {accounts : List ResourceAccount} (nodup : accounts.Nodup)
    (tally : ResourceTally) (account : ResourceAccount) :
    (state.withHolds accounts tally).parts account =
      if account ∈ accounts then (state.parts account).addHold tally else state.parts account :=
  view_foldl parts _ (fun _ entries => entries.addHold tally) (parts_addHold tally) nodup state
    account

@[simp] theorem reservations_withHolds (accounts : List ResourceAccount) (tally : ResourceTally) :
    (state.withHolds accounts tally).reservations = state.reservations :=
  foldl_keeps reservations _
    (fun state account => reservations_addHold state tally account) accounts state

/-- A granted reservation: its windows are rolled over, its holds added and its record
opened. -/
def granted (state : ResourceState) (scope : ResourceScope) (estimate : ResourceEstimate)
    (id : ResourceReservationId) (now : DateTime) : ResourceState :=
  let accounts := cascade scope
  ((state.rolledOver accounts now).withHolds accounts (.fromEstimate estimate)).putRecord id
    (.opened ⟨id, scope, estimate⟩)

theorem parts_granted (id : ResourceReservationId) (now : DateTime) (other : ResourceAccount) :
    (state.granted scope estimate id now).parts other = if other ∈ cascade scope then
        ((state.parts other).advance now).addHold (.fromEstimate estimate)
      else state.parts other := by
  have nodup := cascade_nodup scope
  rw [granted, parts_putRecord, parts_withHolds _ nodup, parts_rolledOver state nodup]
  split <;> rfl

@[simp] theorem reservations_granted (id : ResourceReservationId) (now : DateTime) :
    (state.granted scope estimate id now).reservations =
      state.reservations.insert id (.opened ⟨id, scope, estimate⟩) := by
  simp [granted]

/-- How a reservation ends: refused as it stands, objected to by an account once the windows
are rolled over, or granted. -/
theorem reserve_cases (id : ResourceReservationId) (now : DateTime) :
    (∃ error, reserveWithOutcomeInState state scope estimate id now = (.error error, state)) ∨
    (∃ error, evaluateCascade (state.rolledOver (cascade scope) now)
          (.fromEstimate estimate) (cascade scope) [] = .error error ∧
        reserveWithOutcomeInState state scope estimate id now =
          (.error error, state.rolledOver (cascade scope) now)) ∨
    (validateEstimate estimate = .ok () ∧ state.reservations.get id = none ∧
      ∃ warnings, evaluateCascade (state.rolledOver (cascade scope) now)
          (.fromEstimate estimate) (cascade scope) [] = .ok warnings ∧
        reserveWithOutcomeInState state scope estimate id now =
          (.ok ⟨⟨id, scope, estimate⟩, warnings⟩, state.granted scope estimate id now)) := by
  unfold reserveWithOutcomeInState
  cases valid : validateEstimate estimate with
  | error error => exact .inl ⟨error, rfl⟩
  | ok =>
    dsimp only
    split
    · exact .inl ⟨_, rfl⟩
    rename_i absent
    have fresh : state.reservations.get id = none := by
      simpa [containsKey] using absent
    split
    next error objects => exact .inr (.inl ⟨error, objects, rfl⟩)
    next warnings passed => exact .inr (.inr ⟨rfl, fresh, warnings, passed, rfl⟩)

theorem reserve_effect (id : ResourceReservationId) (now : DateTime) :
    Effect state now (reserveWithOutcomeInState state scope estimate id now).2
      (.reserve scope estimate id) := by
  rcases state.reserve_cases scope estimate id now with
    ⟨_, refused⟩ | ⟨_, _, denied⟩ | ⟨valid, fresh, _, _, granted⟩
  · rw [refused]
    exact .nothing rfl
  · rw [denied]
    exact .rolled (state.parts_rolledOver (cascade_nodup scope) now)
      (state.reservations_rolledOver _ now)
  · rw [granted]
    exact .held fresh valid (state.parts_granted scope estimate id now)
      (state.reservations_granted scope estimate id now)

/-- The loop body that closes a record against one of its accounts. -/
def closeAccount (record : ReservationRecord) (spent : Option ResourceUsage) (now : DateTime)
    (state : ResourceState) (account : ResourceAccount) : ResourceState :=
  match spent with
  | none => releaseAccount record now state account
  | some actual => reconcileAccount record actual now state account

/-- A closed reservation: its holds are given back, what was spent is counted, and its
record is closed. -/
def closedBy (state : ResourceState) (id : ResourceReservationId) (record : ReservationRecord)
    (spent : Option ResourceUsage) (now : DateTime) : ResourceState :=
  (record.accounts.foldl (closeAccount record spent now) state).putRecord id (record.close spent)

theorem parts_closeAccount (record : ReservationRecord) (spent : Option ResourceUsage)
    (now : DateTime) (state : ResourceState) (account other : ResourceAccount) :
    (closeAccount record spent now state account).parts other = if other = account then
        (((state.parts other).advance now).dropHold record.tally).spend spent
      else state.parts other := by
  cases spent with
  | none =>
    rw [closeAccount, releaseAccount, parts_dropHold, parts_advance]
    split <;> rfl
  | some =>
    rw [closeAccount, reconcileAccount, parts_addUsage, parts_dropHold, parts_advance]
    split <;> rfl

theorem parts_closedBy (id : ResourceReservationId) (record : ReservationRecord)
    (spent : Option ResourceUsage) (now : DateTime) (other : ResourceAccount) :
    (state.closedBy id record spent now).parts other = if other ∈ record.accounts then
        (((state.parts other).advance now).dropHold record.tally).spend spent
      else state.parts other := by
  rw [closedBy, parts_putRecord]
  exact view_foldl parts _
    (fun _ entries => ((entries.advance now).dropHold record.tally).spend spent)
    (parts_closeAccount record spent now) record.accounts_nodup state other

@[simp] theorem reservations_closedBy (id : ResourceReservationId) (record : ReservationRecord)
    (spent : Option ResourceUsage) (now : DateTime) :
    (state.closedBy id record spent now).reservations =
      state.reservations.insert id (record.close spent) := by
  rw [closedBy, reservations_putRecord, foldl_keeps reservations]
  intro state account
  cases spent <;> exact reservations_advance state account now

variable {state : ResourceState}

theorem close_unknown
    (unknown : state.reservations.get id = none) (spent : Option ResourceUsage) (now : DateTime) :
    state.apply (.closing id spent) now = (.closed (.error (.unknownReservation id)), state) := by
  cases spent with
  | none => simp only [ResourceOp.closing, apply, releaseInState, unknown]
  | some => simp only [ResourceOp.closing, apply, reconcileInState, unknown]

theorem close_known (known : state.reservations.get id = some record)
    (spent : Option ResourceUsage) (now : DateTime) :
    state.apply (.closing id spent) now = match record.closeAnswer id spent with
      | .error error => (.closed (.error error), state)
      | .ok receipt => (.closed (.ok receipt), state.closedBy id record spent now) := by
  unfold closeAnswer
  cases spent with
  | none =>
    simp only [ResourceOp.closing, apply, releaseInState, known]
    split <;> rfl
  | some actual =>
    simp only [ResourceOp.closing, apply, reconcileInState, known]
    split
    · rfl
    · cases validateUsage actual <;> rfl

theorem close_cases (state : ResourceState) (id : ResourceReservationId)
    (spent : Option ResourceUsage) (now : DateTime) :
    (∃ error, state.apply (.closing id spent) now = (.closed (.error error), state)) ∨
    ∃ record, state.reservations.get id = some record ∧ record.status = .active ∧
      (∀ actual ∈ spent, validateUsage actual = .ok ()) ∧
      state.apply (.closing id spent) now =
        (.closed (.ok (record.receipt id spent)), state.closedBy id record spent now) := by
  cases known : state.reservations.get id with
  | none => exact .inl ⟨_, close_unknown known spent now⟩
  | some record =>
    rw [close_known known]
    cases answer : record.closeAnswer id spent with
    | error error => exact .inl ⟨error, rfl⟩
    | ok =>
      obtain ⟨active, valid, rfl⟩ := closeAnswer_ok answer
      exact .inr ⟨record, rfl, active, valid, rfl⟩

theorem close_of_refused (id : ResourceReservationId) (spent : Option ResourceUsage)
    (now : DateTime) (refused : (state.apply (.closing id spent) now).1.isOk = false) :
    (state.apply (.closing id spent) now).2 = state := by
  rcases state.close_cases id spent now with ⟨_, closes⟩ | ⟨_, _, _, _, closes⟩
  · rw [closes]
  · rw [closes] at refused
    cases refused

theorem close_effect (state : ResourceState) (id : ResourceReservationId)
    (spent : Option ResourceUsage) (now : DateTime) :
    Effect state now (state.apply (.closing id spent) now).2 (.closing id spent) := by
  rcases state.close_cases id spent now with ⟨_, refused⟩ | ⟨record, found, active, valid, done⟩
  · rw [refused]
    exact .nothing rfl
  · rw [done]
    exact .closed valid found active (state.parts_closedBy id record spent now)
      (state.reservations_closedBy id record spent now)

theorem apply_effect (state : ResourceState) (op : ResourceOp) (now : DateTime) :
    Effect state now (state.apply op now).2 op := by
  cases op with
  | setLimit => exact .limit (state.parts_setLimit _ _ now) (state.reservations_setLimit _ _ now)
  | reserve => exact state.reserve_effect _ _ _ now
  | reconcile => exact state.close_effect _ (some _) now
  | release => exact state.close_effect _ none now

/-- No operation takes a record out, moves it to other accounts or writes a closed one. -/
theorem record_kept {op : ResourceOp} {now : DateTime}
    (found : state.reservations.get id = some record) :
    ∃ kept, (state.apply op now).2.reservations.get id = some kept ∧
      kept.accounts = record.accounts ∧ (record.status ≠ .active → kept = record) := by
  have effect := state.apply_effect op now
  generalize (state.apply op now).2 = after at effect
  cases effect with
  | nothing same => exact ⟨record, same ▸ found, rfl, fun _ => rfl⟩
  | limit _ records | rolled _ records => exact ⟨record, records ▸ found, rfl, fun _ => rfl⟩
  | held fresh _ _ records =>
    rw [records, get_insert]
    split
    next same =>
      rw [same, fresh] at found
      cases found
    · exact ⟨record, found, rfl, fun _ => rfl⟩
  | @closed _ _ spent _ known active _ records =>
    rw [records, get_insert]
    split
    next same =>
      rw [same, known] at found
      cases found
      refine ⟨_, rfl, ?_, fun closed => absurd active closed⟩
      cases spent <;> rfl
    · exact ⟨record, found, rfl, fun _ => rfl⟩

end ResourceState

end Ironclaw.Resources
