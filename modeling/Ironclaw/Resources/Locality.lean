import Ironclaw.Resources.Steps

/-!
# What an operation reads and writes

An operation reads and writes the entries of the accounts it works on and at most one
record.  Two states that agree there give the same answer and agree there afterwards, and
everything else stays as it was.
-/

namespace Ironclaw.Resources

open HostApi Lib Table ResourceOp
open ResourceAccount (cascade cascade_nodup)

/-- The places of a state: the entries of an account, and a record. -/
inductive ResourceCell where
  | account (account : ResourceAccount)
  | record (id : ResourceReservationId)
  deriving DecidableEq

variable [platform : Platform]

def ResourceCell.Value : ResourceCell → Type
  | .account _ => AccountParts
  | .record _ => Option ReservationRecord

def ResourceState.cell (state : ResourceState) : (cell : ResourceCell) → cell.Value
  | .account account => state.parts account
  | .record id => state.reservations.get id

namespace ResourceOp

def recordId : ResourceOp → Option ResourceReservationId
  | .setLimit _ _ => none
  | .reserve _ _ id => some id
  | .reconcile id _ => some id
  | .release id => some id

@[simp] theorem recordId_closing (id : ResourceReservationId) (spent : Option ResourceUsage) :
    (closing id spent).recordId = some id := by
  cases spent <;> rfl

/-- The places an operation touches when it works on the given accounts. -/
def Touches (op : ResourceOp) (accounts : List ResourceAccount) : ResourceCell → Prop
  | .account account => account ∈ accounts
  | .record id => op.recordId = some id

/-- The accounts are the ones that the operation works on in the state. -/
def WorksOn (op : ResourceOp) (state : ResourceState) (accounts : List ResourceAccount) : Prop :=
  match op with
  | .setLimit account _ => accounts = [account]
  | .reserve scope _ _ => accounts = cascade scope
  | .reconcile id _ => ∀ record ∈ state.reservations.get id, record.accounts = accounts
  | .release id => ∀ record ∈ state.reservations.get id, record.accounts = accounts

theorem worksOn_closing {id : ResourceReservationId} {spent : Option ResourceUsage}
    {state : ResourceState} {accounts : List ResourceAccount} :
    (closing id spent).WorksOn state accounts ↔
      ∀ record ∈ state.reservations.get id, record.accounts = accounts := by
  cases spent <;> rfl

end ResourceOp

/-- A relation between entries that no operation can tell apart. -/
structure AccountParts.Congruence (rel : AccountParts → AccountParts → Prop) : Prop where
  limits : ∀ {first second}, rel first second → first.limits = second.limits
  reserved : ∀ {first second}, rel first second →
    first.reserved.getD .zero = second.reserved.getD .zero
  usage : ∀ {first second}, rel first second → first.usage = second.usage
  periodAnchor : ∀ {first second}, rel first second → first.periodAnchor = second.periodAnchor
  setLimit : ∀ {first second}, rel first second → ∀ limits now,
    rel (first.setLimit limits now) (second.setLimit limits now)
  advance : ∀ {first second}, rel first second → ∀ now, rel (first.advance now) (second.advance now)
  addHold : ∀ {first second}, rel first second → ∀ tally,
    rel (first.addHold tally) (second.addHold tally)
  dropHold : ∀ {first second}, rel first second → ∀ tally,
    rel (first.dropHold tally) (second.dropHold tally)
  spend : ∀ {first second}, rel first second → ∀ spent, rel (first.spend spent) (second.spend spent)

theorem AccountParts.congruence_eq : Congruence (fun first second => first = second) where
  limits same := same ▸ rfl
  reserved same := same ▸ rfl
  usage same := same ▸ rfl
  periodAnchor same := same ▸ rfl
  setLimit same _ _ := same ▸ rfl
  advance same _ := same ▸ rfl
  addHold same _ := same ▸ rfl
  dropHold same _ := same ▸ rfl
  spend same _ := same ▸ rfl

namespace ResourceState

variable {rel : AccountParts → AccountParts → Prop} {first second : ResourceState}
  {op : ResourceOp} {accounts : List ResourceAccount}

structure AgreeOn (rel : AccountParts → AccountParts → Prop) (op : ResourceOp)
    (accounts : List ResourceAccount) (first second : ResourceState) : Prop where
  parts : ∀ account ∈ accounts, rel (first.parts account) (second.parts account)
  record : ∀ id, op.recordId = some id → first.reservations.get id = second.reservations.get id

structure Alike (rel : AccountParts → AccountParts → Prop) (op : ResourceOp)
    (accounts : List ResourceAccount) (first second : GovernorAnswer × ResourceState) : Prop where
  answer : first.1 = second.1
  agree : AgreeOn rel op accounts first.2 second.2

/-! ## Reservations -/

theorem evaluateCascade_congr (congruence : AccountParts.Congruence rel) (requested : ResourceTally)
    (same : ∀ account ∈ accounts, rel (first.parts account) (second.parts account))
    (warnings : List BudgetWarning) : evaluateCascade first requested accounts warnings =
      evaluateCascade second requested accounts warnings := by
  induction accounts generalizing warnings with
  | nil => rfl
  | cons account _ ih =>
    have parts := same account List.mem_cons_self
    have later := ih fun other member => same other (List.mem_cons_of_mem _ member)
    have limits : first.limits.get account = second.limits.get account := congruence.limits parts
    have usage : first.usageFor account = second.usageFor account :=
      congrArg (Option.getD · ResourceTally.zero) (congruence.usage parts)
    have reserved : first.reservedFor account = second.reservedFor account :=
      congruence.reserved parts
    have anchor : first.periodAnchors.get account = second.periodAnchors.get account :=
      congruence.periodAnchor parts
    simp only [evaluateCascade, limits, usage, reserved, anchor, later]

variable {now : DateTime} {scope : ResourceScope} {state : ResourceState}
    {estimate : ResourceEstimate} {id : ResourceReservationId}

theorem reserve_invalid {error : ResourceError}
    (invalid : validateEstimate estimate = .error error) :
    reserveWithOutcomeInState state scope estimate id now = (.error error, state) := by
  simp only [reserveWithOutcomeInState, invalid]

theorem reserve_known {record : ReservationRecord} (valid : validateEstimate estimate = .ok ())
    (known : state.reservations.get id = some record) :
    reserveWithOutcomeInState state scope estimate id now =
      (.error (.reservationAlreadyExists id), state) := by
  simp [reserveWithOutcomeInState, valid, containsKey, known]

theorem reserve_fresh (valid : validateEstimate estimate = .ok ())
    (fresh : state.reservations.get id = none) :
    reserveWithOutcomeInState state scope estimate id now =
      match evaluateCascade (state.rolledOver (cascade scope) now)
          (.fromEstimate estimate) (cascade scope) [] with
      | .error error => (.error error, state.rolledOver (cascade scope) now)
      | .ok warnings => (.ok ⟨⟨id, scope, estimate⟩, warnings⟩,
          state.granted scope estimate id now) := by
  simp only [reserveWithOutcomeInState, valid, containsKey, fresh, Option.isSome_none]
  rfl

theorem reserve_alike (congruence : AccountParts.Congruence rel)
    (agree : AgreeOn rel (.reserve scope estimate id) (cascade scope) first second)
    (now : DateTime) : Alike rel (.reserve scope estimate id) (cascade scope)
      (first.apply (.reserve scope estimate id) now)
      (second.apply (.reserve scope estimate id) now) := by
  have sameRecord := agree.record id rfl
  cases valid : validateEstimate estimate with
  | error =>
    simp only [apply, reserve_invalid valid]
    exact ⟨rfl, agree⟩
  | ok =>
    cases known : first.reservations.get id with
    | some =>
      simp only [apply, reserve_known valid known,
        reserve_known valid (sameRecord.symm.trans known)]
      exact ⟨rfl, agree⟩
    | none =>
      have nodup := cascade_nodup scope
      have rolled : ∀ account ∈ cascade scope,
          rel ((first.rolledOver (cascade scope) now).parts account)
            ((second.rolledOver (cascade scope) now).parts account) := by
        intro account member
        rw [parts_rolledOver _ nodup, parts_rolledOver _ nodup, if_pos member, if_pos member]
        exact congruence.advance (agree.parts account member) now
      have checks := evaluateCascade_congr congruence (.fromEstimate estimate) rolled []
      simp only [apply, reserve_fresh valid known,
        reserve_fresh valid (sameRecord.symm.trans known), checks]
      split
      · refine ⟨rfl, rolled, fun other looks => ?_⟩
        simp only [reservations_rolledOver]
        exact agree.record other looks
      · refine ⟨rfl, fun account member => ?_, fun other looks => ?_⟩
        · simp only [parts_granted, if_pos member]
          exact congruence.addHold (congruence.advance (agree.parts account member) now) _
        · simp only [reservations_granted, get_insert, agree.record other looks]

/-! ## Settlements -/

theorem close_alike (congruence : AccountParts.Congruence rel) {spent : Option ResourceUsage}
    (agree : AgreeOn rel (.closing id spent) accounts first second) (now : DateTime) :
    Alike rel (.closing id spent) accounts (first.apply (.closing id spent) now)
      (second.apply (.closing id spent) now) := by
  have sameRecord := agree.record id (recordId_closing id spent)
  cases known : first.reservations.get id with
  | none =>
    rw [close_unknown known, close_unknown (sameRecord.symm.trans known)]
    exact ⟨rfl, agree⟩
  | some =>
    rw [close_known known, close_known (sameRecord.symm.trans known)]
    split
    · exact ⟨rfl, agree⟩
    refine ⟨rfl, fun account member => ?_, fun other looks => ?_⟩
    · simp only [parts_closedBy]
      split
      · exact congruence.spend (congruence.dropHold
          (congruence.advance (agree.parts account member) now) _) _
      · exact agree.parts account member
    · simp only [reservations_closedBy, get_insert, agree.record other looks]

/-! ## All operations -/

theorem apply_alike (congruence : AccountParts.Congruence rel)
    (worksOn : op.WorksOn first accounts) (agree : AgreeOn rel op accounts first second)
    (now : DateTime) : Alike rel op accounts (first.apply op now) (second.apply op now) := by
  cases op with
  | setLimit account limits =>
    obtain rfl : accounts = [account] := worksOn
    refine ⟨rfl, fun other member => ?_, nofun⟩
    simp only [apply, parts_setLimit]
    split
    · exact congruence.setLimit (agree.parts other member) limits now
    · exact agree.parts other member
  | reserve _ _ id =>
    obtain rfl : accounts = cascade _ := worksOn
    exact reserve_alike congruence agree now
  | reconcile id actual =>
    exact @close_alike _ _ first second accounts id congruence (some actual) agree now
  | release id => exact @close_alike _ _ first second accounts id congruence none agree now

theorem apply_frame {op : ResourceOp} {accounts : List ResourceAccount}
    (worksOn : op.WorksOn state accounts) (now : DateTime) {cell : ResourceCell}
    (untouched : ¬ op.Touches accounts cell) :
    (state.apply op now).2.cell cell = state.cell cell := by
  have effect := state.apply_effect op now
  generalize (state.apply op now).2 = after at effect
  cases effect with
  | nothing same => rw [same]
  | limit parts records =>
    obtain rfl : accounts = [_] := worksOn
    cases cell with
    | account account => exact (parts account).trans (if_neg (mt List.mem_singleton.mpr untouched))
    | record id => exact congrArg (get · id) records
  | rolled parts records =>
    obtain rfl : accounts = _ := worksOn
    cases cell with
    | account account => exact (parts account).trans (if_neg untouched)
    | record id => exact congrArg (get · id) records
  | held _ _ parts records =>
    obtain rfl : _ = _ := worksOn
    cases cell with
    | account account => exact (parts account).trans (if_neg untouched)
    | record other =>
      refine (congrArg (get · other) records).trans (get_insert_of_ne _ _ ?_)
      exact fun same => untouched (congrArg some same.symm)
  | closed _ found _ parts records =>
    obtain rfl := worksOn_closing.mp worksOn _ found
    cases cell with
    | account account => exact (parts account).trans (if_neg untouched)
    | record other =>
      refine (congrArg (get · other) records).trans (get_insert_of_ne _ _ ?_)
      exact fun same =>
        untouched ((recordId_closing _ _).trans (congrArg some same.symm))

/-! ## Related states -/

structure Everywhere (rel : AccountParts → AccountParts → Prop) (first second : ResourceState) :
    Prop where
  parts : ∀ account, rel (first.parts account) (second.parts account)
  records : first.reservations = second.reservations

theorem exists_worksOn (state : ResourceState) (op : ResourceOp) :
    ∃ accounts, op.WorksOn state accounts := by
  have closing : ∀ id, ∃ accounts, ∀ record ∈ state.reservations.get id,
      record.accounts = accounts := by
    intro id
    cases state.reservations.get id with
    | none => exact ⟨[], fun _ impossible => nomatch impossible⟩
    | some record => exact ⟨record.accounts, fun _ same => Option.some.inj same ▸ rfl⟩
  cases op with
  | setLimit | reserve _ _ id => exact ⟨_, rfl⟩
  | reconcile id | release id => exact closing id

theorem apply_everywhere (congruence : AccountParts.Congruence rel)
    (related : Everywhere rel first second) (op : ResourceOp) (now : DateTime) :
    (first.apply op now).1 = (second.apply op now).1 ∧
      Everywhere rel (first.apply op now).2 (second.apply op now).2 := by
  obtain ⟨accounts, worksOn⟩ := first.exists_worksOn op
  have worksOnSecond : op.WorksOn second accounts := by
    cases op <;> simp only [ResourceOp.WorksOn, ← related.records] at worksOn ⊢ <;> exact worksOn
  have alike := apply_alike congruence worksOn
    ⟨fun account _ => related.parts account, fun id _ => by rw [related.records]⟩ now
  refine ⟨alike.answer, fun account => ?_, ext fun id => ?_⟩
  · by_cases member : account ∈ accounts
    · exact alike.agree.parts account member
    have one : (first.apply op now).2.parts account = first.parts account :=
      @apply_frame _ _ _ _ worksOn now (.account account) member
    have two : (second.apply op now).2.parts account = second.parts account :=
      @apply_frame _ _ _ _ worksOnSecond now (.account account) member
    rw [one, two]
    exact related.parts account
  · by_cases looks : op.recordId = some id
    · exact alike.agree.record id looks
    have one : (first.apply op now).2.reservations.get id = first.reservations.get id :=
      @apply_frame _ _ _ _ worksOn now (.record id) looks
    have two : (second.apply op now).2.reservations.get id = second.reservations.get id :=
      @apply_frame _ _ _ _ worksOnSecond now (.record id) looks
    rw [one, two, related.records]

end ResourceState

end Ironclaw.Resources
