import Ironclaw.Lib.Table
import Ironclaw.Resources.Limits

/-!
# The state of the governor

The state maps accounts to limits, holds, usage and period anchors, and reservation ids to
records.  Every operation works account by account: it reads and writes the four entries
of the accounts in its cascade, and one record.  `parts` gathers the entries of an account,
and each operation is described by what it does to them.
-/

namespace Ironclaw.Resources

open HostApi Lib ResourceAccount Table ResourceTally

inductive ReservationStatus where
  | active
  | reconciled
  | released
  deriving DecidableEq

structure ResourceReservation where
  id : ResourceReservationId
  scope : ResourceScope
  estimate : ResourceEstimate

structure ResourceReceipt where
  id : ResourceReservationId
  scope : ResourceScope
  status : ReservationStatus
  estimate : ResourceEstimate
  actual : Option ResourceUsage

/-- A reservation with the accounts and the tally it is held against. -/
structure ReservationRecord where
  reservation : ResourceReservation
  accounts : List ResourceAccount
  tally : ResourceTally
  status : ReservationStatus
  actual : Option ResourceUsage
  accounts_eq : accounts = cascade reservation.scope
  tally_eq : tally = fromEstimate reservation.estimate

theorem ReservationRecord.accounts_nodup (record : ReservationRecord) : record.accounts.Nodup := by
  rw [record.accounts_eq]
  exact cascade_nodup _

variable [platform : Platform] (record : ReservationRecord)

inductive ResourceError where
  | limitExceeded (denial : ResourceDenial) (warnings : List BudgetWarning)
  | requiresApproval (needed : ResourceApprovalNeeded) (warnings : List BudgetWarning)
  | reservationAlreadyExists (id : ResourceReservationId)
  | invalidEstimate (dimension : ResourceDimension) (reason : String)
  | unknownReservation (id : ResourceReservationId)
  | reservationClosed (id : ResourceReservationId) (status : ReservationStatus)
  | storage (reason : String)

structure ReservationOutcome where
  reservation : ResourceReservation
  warnings : List BudgetWarning

structure ResourceState where
  limits : Table ResourceAccount ResourceLimits
  reservedByAccount : Table ResourceAccount ResourceTally
  usageByAccount : Table ResourceAccount ResourceTally
  reservations : Table ResourceReservationId ReservationRecord
  periodAnchors : Table ResourceAccount DateTime

@[ext]
structure AccountParts where
  limits : Option ResourceLimits
  reserved : Option ResourceTally
  usage : Option ResourceTally
  periodAnchor : Option DateTime

/-- The entries that are there, and the others for the rest. -/
def AccountParts.orElse (parts other : AccountParts) : AccountParts where
  limits := parts.limits.or other.limits
  reserved := parts.reserved.or other.reserved
  usage := parts.usage.or other.usage
  periodAnchor := parts.periodAnchor.or other.periodAnchor

namespace ResourceState

/-- `ResourceState::default`. -/
def empty : ResourceState := ⟨.empty, .empty, .empty, .empty, .empty⟩

def parts (state : ResourceState) (account : ResourceAccount) : AccountParts where
  limits := state.limits.get account
  reserved := state.reservedByAccount.get account
  usage := state.usageByAccount.get account
  periodAnchor := state.periodAnchors.get account

@[ext]
theorem ext_parts {first second : ResourceState}
    (sameParts : ∀ account, first.parts account = second.parts account)
    (sameRecords : first.reservations = second.reservations) : first = second := by
  have limits : first.limits = second.limits :=
    ext fun account => congrArg AccountParts.limits (sameParts account)
  have reserved : first.reservedByAccount = second.reservedByAccount :=
    ext fun account => congrArg AccountParts.reserved (sameParts account)
  have usage : first.usageByAccount = second.usageByAccount :=
    ext fun account => congrArg AccountParts.usage (sameParts account)
  have anchors : first.periodAnchors = second.periodAnchors :=
    ext fun account => congrArg AccountParts.periodAnchor (sameParts account)
  cases first
  cases second
  simp_all

def reservedFor (state : ResourceState) (account : ResourceAccount) : ResourceTally :=
  (state.reservedByAccount.get account).getD .zero

def usageFor (state : ResourceState) (account : ResourceAccount) : ResourceTally :=
  (state.usageByAccount.get account).getD .zero

end ResourceState

/-! ## Limits and periods -/

variable (state : ResourceState)

def setLimitInState (account : ResourceAccount) (limits : ResourceLimits)
    (now : DateTime) : ResourceState :=
  let priorPeriod := (state.limits.get account).map ResourceLimits.period
  let state :=
    if priorPeriod ≠ some limits.period then
      { state with
        usageByAccount := state.usageByAccount.remove account
        periodAnchors := state.periodAnchors.remove account }
    else state
  { state with
    limits := state.limits.insert account limits
    periodAnchors := state.periodAnchors.insert account (periodBounds limits.period now).2 }

def advancePeriodIfRolledOver (account : ResourceAccount) (now : DateTime) : ResourceState :=
  match state.limits.get account with
  | none => state
  | some limits =>
    if limits.period = .perInvocation then state
    else
      let needsAdvance := ((state.periodAnchors.get account).map fun anchor =>
        periodHasRolledOver anchor now).getD true
      if needsAdvance then
        { state with
          usageByAccount := state.usageByAccount.remove account
          periodAnchors := state.periodAnchors.insert account (periodBounds limits.period now).2 }
      else state

/-! ## Reservations -/

def validateEstimate (estimate : ResourceEstimate) : Except ResourceError Unit :=
  match estimate.usd with
  | some usd =>
    if usd.units < 0 then .error (.invalidEstimate .usd "must be non-negative") else .ok ()
  | none => .ok ()

def validateUsage (usage : ResourceUsage) : Except ResourceError Unit :=
  if usage.usd.units < 0 then .error (.invalidEstimate .usd "must be non-negative") else .ok ()

/-- The loop of a reservation over its accounts; it stops at the first that objects. -/
def evaluateCascade (state : ResourceState) (requested : ResourceTally) :
    List ResourceAccount → List BudgetWarning → Except ResourceError (List BudgetWarning)
  | [], warnings => .ok warnings
  | account :: rest, warnings =>
    match state.limits.get account with
    | none => evaluateCascade state requested rest warnings
    | some limits =>
      match evaluateCascadeForAccount account limits (state.usageFor account)
          (state.reservedFor account) requested (state.periodAnchors.get account) with
      | .allow found => evaluateCascade state requested rest (warnings ++ found)
      | .requiresApproval found needed => .error (.requiresApproval needed (warnings ++ found))
      | .deny found denial => .error (.limitExceeded denial (warnings ++ found))

variable (tally : ResourceTally)

/-- `reserved_by_account.entry(account).or_default().add_assign(tally)`. -/
def ResourceState.addHold (account : ResourceAccount) : ResourceState :=
  { state with
    reservedByAccount := state.reservedByAccount.insert account
      ((state.reservedFor account).addAssign tally) }

/-- `reserved_by_account.entry(account).or_default().sub_assign(tally)`. -/
def ResourceState.dropHold (account : ResourceAccount) : ResourceState :=
  { state with
    reservedByAccount := state.reservedByAccount.insert account
      ((state.reservedFor account).subAssign tally) }

/-- `usage_by_account.entry(account).or_default().add_assign(tally)`. -/
def ResourceState.addUsage (account : ResourceAccount) : ResourceState :=
  { state with
    usageByAccount := state.usageByAccount.insert account
      ((state.usageFor account).addAssign tally) }

def ResourceState.putRecord (id : ResourceReservationId)
    (record : ReservationRecord) : ResourceState :=
  { state with reservations := state.reservations.insert id record }

def ReservationRecord.opened (reservation : ResourceReservation) : ReservationRecord where
  reservation
  accounts := cascade reservation.scope
  tally := .fromEstimate reservation.estimate
  status := .active
  actual := none
  accounts_eq := rfl
  tally_eq := rfl

def reserveWithOutcomeInState (scope : ResourceScope)
    (estimate : ResourceEstimate) (reservationId : ResourceReservationId) (now : DateTime) :
    Except ResourceError ReservationOutcome × ResourceState :=
  match validateEstimate estimate with
  | .error error => (.error error, state)
  | .ok () =>
    if state.reservations.containsKey reservationId then
      (.error (.reservationAlreadyExists reservationId), state)
    else
      let accounts := cascade scope
      let requested := fromEstimate estimate
      let rolled := accounts.foldl (fun state account =>
        advancePeriodIfRolledOver state account now) state
      match evaluateCascade rolled requested accounts [] with
      | .error error => (.error error, rolled)
      | .ok warnings =>
        let reservation : ResourceReservation := ⟨reservationId, scope, estimate⟩
        let held := accounts.foldl (fun state account => state.addHold requested account) rolled
        (.ok ⟨reservation, warnings⟩, held.putRecord reservation.id (.opened reservation))

/-- The body of the loop that settles a reservation against its accounts. -/
def reconcileAccount (actual : ResourceUsage) (now : DateTime)
    (state : ResourceState) (account : ResourceAccount) : ResourceState :=
  ((advancePeriodIfRolledOver state account now).dropHold record.tally account).addUsage
    (.fromUsage actual) account

def reconcileInState (reservationId : ResourceReservationId)
    (actual : ResourceUsage) (now : DateTime) :
    Except ResourceError ResourceReceipt × ResourceState :=
  match state.reservations.get reservationId with
  | none => (.error (.unknownReservation reservationId), state)
  | some record =>
    if record.status ≠ .active then
      (.error (.reservationClosed reservationId record.status), state)
    else
      match validateUsage actual with
      | .error error => (.error error, state)
      | .ok () =>
        let settled := record.accounts.foldl (reconcileAccount record actual now) state
        (.ok ⟨reservationId, record.reservation.scope, .reconciled,
            record.reservation.estimate, some actual⟩, settled.putRecord reservationId
            { record with status := .reconciled, actual := some actual })

/-- The body of the loop that gives the holds of a reservation back. -/
def releaseAccount (now : DateTime) (state : ResourceState)
    (account : ResourceAccount) : ResourceState :=
  (advancePeriodIfRolledOver state account now).dropHold record.tally account

def releaseInState (reservationId : ResourceReservationId)
    (now : DateTime) : Except ResourceError ResourceReceipt × ResourceState :=
  match state.reservations.get reservationId with
  | none => (.error (.unknownReservation reservationId), state)
  | some record =>
    if record.status ≠ .active then
      (.error (.reservationClosed reservationId record.status), state)
    else
      let settled := record.accounts.foldl (releaseAccount record now) state
      (.ok ⟨reservationId, record.reservation.scope, .released, record.reservation.estimate, none⟩,
        settled.putRecord reservationId { record with status := .released })

end Ironclaw.Resources
