import Ironclaw.Lib.Listing
import Ironclaw.Resources.Steps

/-!
# Holds are conserved

The governor keeps the holds of every account as a running tally, and replay computes
them anew from the reservations that are still active.  The two agree as long as the
holds of an account fit its dimensions, since sums and differences are then exact; a
hold that was cut at a bound is given back in full and takes other holds with it.
-/

namespace Ironclaw.Resources

open HostApi Lib ResourceState ResourceTally ResourceAccount Table System
open List

/-! ## Amounts on a grid -/

namespace ResourceDimension

/-- Dollars are written with `scale` decimal places; counts always are what they are. -/
def OnGrid (scale : Nat) : ResourceDimension → Int → Prop
  | .usd, amount => Decimal.quantum scale ∣ amount
  | _, _ => True

instance (scale : Nat) (dimension : ResourceDimension) (amount : Int) :
    Decidable (dimension.OnGrid scale amount) := by
  cases dimension <;> unfold OnGrid <;> infer_instance

variable {scale : Nat} {dimension : ResourceDimension} {first second : Int}

theorem OnGrid.zero : dimension.OnGrid scale 0 := by
  cases dimension with
  | usd => exact Int.dvd_zero _
  | _ => trivial

theorem OnGrid.add (one : dimension.OnGrid scale first) (other : dimension.OnGrid scale second) :
    dimension.OnGrid scale (first + second) := by
  cases dimension with
  | usd => exact Int.dvd_add one other
  | _ => trivial

theorem OnGrid.sub (one : dimension.OnGrid scale first) (other : dimension.OnGrid scale second) :
    dimension.OnGrid scale (first - second) := by
  cases dimension with
  | usd => exact Int.dvd_sub one other
  | _ => trivial

theorem Holds.onGrid (holds : dimension.Holds scale first) : dimension.OnGrid scale first := by
  cases dimension with
  | usd => exact holds.1
  | _ => trivial

theorem Holds.of_le (holds : dimension.Holds scale second) (onGrid : dimension.OnGrid scale first)
    (nonneg : 0 ≤ first) (le : first ≤ second) : dimension.Holds scale first := by
  cases dimension with
  | usd => exact Decimal.FitsAt.of_le holds onGrid nonneg le
  | _ => exact ⟨nonneg, le.trans holds.2⟩

end ResourceDimension

theorem ResourceTally.amount_fromEstimate_nonneg {platform : Platform}
    {estimate : ResourceEstimate} (valid : validateEstimate estimate = .ok ())
    (dimension : ResourceDimension) : 0 ≤ (fromEstimate estimate).amount dimension := by
  cases dimension with
  | usd =>
    unfold validateEstimate at valid
    unfold fromEstimate amount
    cases usd : estimate.usd with
    | none => exact le_refl 0
    | some =>
      rw [usd] at valid
      dsimp only at valid
      split at valid
      · cases valid
      next nonneg => exact not_lt.mp nonneg
  | _ => exact Int.natCast_nonneg _

def ReservationRecord.held (account : ResourceAccount) (dimension : ResourceDimension)
    (record : ReservationRecord) : Int :=
  if record.status = .active ∧ account ∈ record.accounts then record.tally.amount dimension else 0

namespace ReservationRecord

variable {record : ReservationRecord} {account : ResourceAccount}

theorem held_of_mem (active : record.status = .active) (member : account ∈ record.accounts)
    (dimension : ResourceDimension) :
    record.held account dimension = record.tally.amount dimension :=
  if_pos ⟨active, member⟩

theorem held_of_not_mem (outside : account ∉ record.accounts) (dimension : ResourceDimension) :
    record.held account dimension = 0 :=
  if_neg fun counted => outside counted.2

end ReservationRecord

open ReservationRecord (close closeAnswer held_of_mem held_of_not_mem)

/-- Every record of the list counts for nothing negative and lies on the grid. -/
def Tidy (scale : Nat) (records : List ReservationRecord) (account : ResourceAccount)
    (dimension : ResourceDimension) : Prop :=
  ∀ record ∈ records, 0 ≤ record.held account dimension ∧
    dimension.OnGrid scale (record.held account dimension)

theorem Tidy.sum {scale : Nat} {records : List ReservationRecord} {account : ResourceAccount}
    {dimension : ResourceDimension} (tidy : Tidy scale records account dimension) :
    0 ≤ (records.map (ReservationRecord.held account dimension)).sum ∧
      dimension.OnGrid scale (records.map (ReservationRecord.held account dimension)).sum := by
  induction records with
  | nil => exact ⟨le_refl 0, .zero⟩
  | cons record _ ih =>
    obtain ⟨nonneg, onGrid⟩ := tidy record mem_cons_self
    obtain ⟨restNonneg, restOnGrid⟩ := ih fun other member =>
      tidy other (mem_cons_of_mem _ member)
    rw [map_cons, sum_cons]
    exact ⟨Int.add_nonneg nonneg restNonneg, onGrid.add restOnGrid⟩

section

variable [platform : Platform]

/-- The loop of `rebuild_active_holds_from_reservations` over one record. -/
def rebuildHold (state : ResourceState) (record : ReservationRecord) : ResourceState :=
  if record.status = .active then
    record.accounts.foldl (fun state account => state.addHold record.tally account) state
  else state

/-- The holds computed from the reservations, which are walked in the given order. -/
def rebuildActiveHoldsFromReservations (order : List ResourceReservationId)
    (state : ResourceState) : ResourceState :=
  (state.reservations.valuesIn order).foldl rebuildHold
    { state with reservedByAccount := .empty }

variable (records : List ReservationRecord) (state : ResourceState) (record : ReservationRecord)
    (account : ResourceAccount)

theorem parts_rebuildHold : (rebuildHold state record).parts account =
      if record.status = .active ∧ account ∈ record.accounts then
        (state.parts account).addHold record.tally
      else state.parts account := by
  unfold rebuildHold
  by_cases active : record.status = .active
  · rw [if_pos active]
    refine (view_foldl parts _ (fun _ entries => entries.addHold record.tally)
      (parts_addHold record.tally) record.accounts_nodup state account).trans ?_
    simp [active]
  · rw [if_neg active]
    simp [active]

@[simp] theorem reservations_rebuildHold :
    (rebuildHold state record).reservations = state.reservations := by
  unfold rebuildHold
  split
  · exact foldl_keeps reservations _
      (fun state account => state.reservations_addHold record.tally account) _ state
  · rfl

theorem parts_foldl_rebuildHold : ∃ reserved, (records.foldl rebuildHold state).parts account =
      { state.parts account with reserved } := by
  induction records generalizing state with
  | nil => exact ⟨(state.parts account).reserved, rfl⟩
  | cons record _ ih =>
    obtain ⟨reserved, parts⟩ := ih (rebuildHold state record)
    refine ⟨reserved, parts.trans ?_⟩
    rw [parts_rebuildHold]
    split <;> rfl

/-- Adding the holds of records one by one gives their sum, in any order, since every
partial sum is at most the whole. -/
theorem amount_foldl_rebuildHold {scale : Nat} {account : ResourceAccount}
    {dimension : ResourceDimension} (tidy : Tidy scale records account dimension)
    (state : ResourceState) (nonneg : 0 ≤ (state.reservedFor account).amount dimension)
    (onGrid : dimension.OnGrid scale ((state.reservedFor account).amount dimension))
    (holds : dimension.Holds scale ((state.reservedFor account).amount dimension +
      (records.map (ReservationRecord.held account dimension)).sum)) :
    ((records.foldl rebuildHold state).reservedFor account).amount dimension =
      (state.reservedFor account).amount dimension +
        (records.map (ReservationRecord.held account dimension)).sum := by
  induction records generalizing state with
  | nil =>
    rw [map_nil, sum_nil, Int.add_zero]
    rfl
  | cons record rest ih =>
    obtain ⟨_, recordOnGrid⟩ := tidy record mem_cons_self
    have restTidy : Tidy scale rest account dimension := fun other member =>
      tidy other (mem_cons_of_mem _ member)
    have restSum := restTidy.sum
    rw [map_cons, sum_cons] at holds ⊢
    have added : ((rebuildHold state record).reservedFor account).amount dimension =
        (state.reservedFor account).amount dimension + record.held account dimension := by
      have fits : dimension.Holds scale ((state.reservedFor account).amount dimension +
          record.held account dimension) :=
        holds.of_le (onGrid.add recordOnGrid) (by omega) (by omega)
      rw [← parts_reserved, parts_rebuildHold]
      unfold ReservationRecord.held at fits ⊢
      split
      next counted =>
        rw [if_pos counted] at fits
        exact amount_addAssign fits
      · rw [Int.add_zero]
        rfl
    rw [foldl_cons, ih restTidy _ (by omega) (added ▸ onGrid.add recordOnGrid)
      (by rwa [added, Int.add_assoc]), added, Int.add_assoc]

/-! ## Runs -/

def ResourceState.next (state : ResourceState) (call : ResourceOp × DateTime) : ResourceState :=
  (state.apply call.1 call.2).2

def governor : System ResourceState (ResourceOp × DateTime) :=
  ofFunction (fun state => state = .empty) next

theorem governor.reachable_foldl {guard : ResourceState → ResourceOp × DateTime → Prop}
    {calls : List (ResourceOp × DateTime)} (allowed : System.AllowedAlong guard next .empty calls) :
    governor.Reachable guard (calls.foldl next .empty) := by
  have start : governor.Reachable guard .empty := .start rfl
  exact start.followAllowed calls allowed

/-! ## Closed reservations -/

/-- The operation reserves or closes the id. -/
def ResourceOp.names (id : ResourceReservationId) : ResourceOp → Bool
  | .setLimit _ _ => false
  | .reserve _ _ other | .reconcile other _ | .release other => other = id

def ResourceState.Closes (state : ResourceState) (id : ResourceReservationId)
    (call : ResourceOp × DateTime) : Prop :=
  (state.apply call.1 call.2).1.isOk = true ∧ ∃ spent, call.1 = .closing id spent

section

variable {state : ResourceState} {id : ResourceReservationId} {record : ReservationRecord}

theorem ResourceState.closed_kept (found : state.reservations.get id = some record)
    (closed : record.status ≠ .active) (calls : List (ResourceOp × DateTime)) :
    (calls.foldl next state).reservations.get id = some record := by
  induction calls generalizing state with
  | nil => exact found
  | cons _ _ ih =>
    obtain ⟨_, stored, _, same⟩ := record_kept found
    exact ih (same closed ▸ stored)

theorem ResourceState.refused_of_closed (found : state.reservations.get id = some record)
    (closed : record.status ≠ .active) {op : ResourceOp} (named : op.names id = true)
    (now : DateTime) : (state.apply op now).1.isOk = false := by
  have refuses : ∀ spent, (state.apply (.closing id spent) now).1.isOk = false := by
    intro spent
    rw [close_known found]
    unfold closeAnswer
    rw [if_pos closed]
    rfl
  cases op with
  | setLimit => cases named
  | reserve scope estimate other =>
    obtain rfl := of_decide_eq_true named
    rcases state.reserve_cases scope estimate other now with
      ⟨_, refused⟩ | ⟨_, _, denied⟩ | ⟨_, fresh, _⟩
    · rw [apply, refused]
      rfl
    · rw [apply, denied]
      rfl
    · rw [fresh] at found
      cases found
  | reconcile _ actual => exact of_decide_eq_true named ▸ refuses (some actual)
  | release => exact of_decide_eq_true named ▸ refuses none

theorem ResourceState.Closes.closed {call : ResourceOp × DateTime} (closes : state.Closes id call) :
    ∃ record, (state.next call).reservations.get id = some record ∧ record.status ≠ .active := by
  obtain ⟨_, now⟩ := call
  obtain ⟨succeeds, spent, rfl⟩ := closes
  unfold next
  rcases state.close_cases id spent now with ⟨_, refused⟩ | ⟨_, _, _, _, done⟩
  · rw [refused] at succeeds
    cases succeeds
  · rw [done, reservations_closedBy, get_insert_self]
    refine ⟨_, rfl, ?_⟩
    cases spent <;> simp [close]

/-- Along every row of calls at most one closes a reservation, every later one that closes
or reserves its id fails, and a call that fails to close one leaves the state as it was. -/
theorem governor.closes_once (state : ResourceState) (id : ResourceReservationId) :
    (∀ before call after later, (before.foldl next state).Closes id call →
      let reached := (before ++ call :: after).foldl next state
      ¬ reached.Closes id later ∧
        (later.1.names id = true → (reached.apply later.1 later.2).1.isOk = false)) ∧
    ∀ spent now, (state.apply (.closing id spent) now).1.isOk = false →
      (state.apply (.closing id spent) now).2 = state := by
  refine ⟨?_, close_of_refused id⟩
  intro _ _ after later closes reached
  obtain ⟨record, found, closed⟩ := closes.closed
  have stored : reached.reservations.get id = some record := by
    unfold reached
    rw [foldl_append]
    exact closed_kept found closed after
  have refused := fun named : later.1.names id = true =>
    refused_of_closed stored closed named later.2
  refine ⟨fun again => ?_, refused⟩
  obtain ⟨succeeds, spent, same⟩ := again
  have named : later.1.names id = true := by
    rw [same]
    cases spent <;> exact decide_eq_true rfl
  rw [refused named] at succeeds
  cases succeeds

end

/-- The holds of the accounts that a request touches stay within their dimensions, dollars
with at most `scale` decimal places. -/
def HoldsFit (scale : Nat) (state : ResourceState) : ResourceOp → Prop
  | .reserve scope estimate _ =>
    ∀ account ∈ cascade scope, ∀ dimension : ResourceDimension,
      dimension.OnGrid scale ((fromEstimate estimate).amount dimension) ∧
      dimension.Holds scale ((state.reservedFor account).amount dimension +
        (fromEstimate estimate).amount dimension)
  | _ => True

/-- The running tallies are the sums of the active holds. -/
structure Conserved (scale : Nat) (state : ResourceState) : Prop where
  tidy : ∀ {id record}, state.reservations.get id = some record → record.status = .active →
    ∀ dimension, 0 ≤ record.tally.amount dimension ∧
      dimension.OnGrid scale (record.tally.amount dimension)
  reserved : ∀ account dimension, (state.reservedFor account).amount dimension =
    state.reservations.sumValues (ReservationRecord.held account dimension)
  fits : ∀ account (dimension : ResourceDimension),
    dimension.Holds scale ((state.reservedFor account).amount dimension)

namespace Conserved

variable {scale : Nat} {state after : ResourceState} {id : ResourceReservationId}
    {record : ReservationRecord}

theorem held (conserved : Conserved scale state) (found : state.reservations.get id = some record)
    (account : ResourceAccount) (dimension : ResourceDimension) :
    0 ≤ record.held account dimension ∧ dimension.OnGrid scale (record.held account dimension) := by
  unfold ReservationRecord.held
  split
  next counted => exact conserved.tidy found counted.1 dimension
  · exact ⟨le_refl 0, .zero⟩

theorem rebuilt (conserved : Conserved scale state) {order : List ResourceReservationId}
    (iterated : state.reservations.IteratedBy order) (account : ResourceAccount) :
    (rebuildActiveHoldsFromReservations order state).reservedFor account =
      state.reservedFor account := by
  refine ext_amount fun dimension => ?_
  have tidy : Tidy scale (state.reservations.valuesIn order) account dimension := by
    intro _ member
    obtain ⟨_, found⟩ := (mem_valuesIn iterated).mp member
    exact conserved.held found account dimension
  have cleared : (reservedFor { state with reservedByAccount := .empty }
      account).amount dimension = 0 := amount_zero dimension
  have total : ((state.reservations.valuesIn order).map
      (ReservationRecord.held account dimension)).sum =
        (state.reservedFor account).amount dimension := by
    rw [conserved.reserved, sumValues_eq_sum iterated]
  unfold rebuildActiveHoldsFromReservations
  rw [amount_foldl_rebuildHold _ tidy, cleared, Int.zero_add, total]
  · rw [cleared]
  · rw [cleared]
    exact .zero
  · rw [cleared, Int.zero_add, total]
    exact conserved.fits account dimension

theorem empty (scale : Nat) : Conserved scale .empty where
  tidy found := by cases found
  reserved account dimension := amount_zero dimension
  fits account dimension := by
    rw [show (reservedFor .empty account).amount dimension = 0 from amount_zero dimension]
    cases dimension with
    | usd => exact Decimal.fitsAt_zero scale
    | _ => exact ⟨le_refl 0, by decide⟩

theorem of_same (conserved : Conserved scale state)
    (tally : ∀ account, after.reservedFor account = state.reservedFor account)
    (records : after.reservations = state.reservations) : Conserved scale after where
  tidy found := conserved.tidy (records ▸ found)
  reserved account dimension := by
    rw [tally, records]
    exact conserved.reserved account dimension
  fits account dimension := by
    rw [tally]
    exact conserved.fits account dimension

theorem store (conserved : Conserved scale state)
    (records : after.reservations = state.reservations.insert id record)
    (tidy : record.status = .active → ∀ dimension, 0 ≤ record.tally.amount dimension ∧
      dimension.OnGrid scale (record.tally.amount dimension))
    (moved : ∀ account dimension, (after.reservedFor account).amount dimension +
      ((state.reservations.get id).map (ReservationRecord.held account dimension)).getD 0 =
        (state.reservedFor account).amount dimension + record.held account dimension)
    (fits : ∀ account (dimension : ResourceDimension),
      dimension.Holds scale ((after.reservedFor account).amount dimension)) :
    Conserved scale after where
  tidy {other stored} found := by
    rw [records, get_insert] at found
    split at found
    · cases found
      exact tidy
    · exact conserved.tidy found
  reserved account dimension := by
    have sums := state.reservations.sumValues_insert id record
      (ReservationRecord.held account dimension)
    have before := conserved.reserved account dimension
    have step := moved account dimension
    rw [records]
    omega
  fits

variable {now : DateTime}

variable (conserved : Conserved scale state)
include conserved

theorem held_effect {scope : ResourceScope} {estimate : ResourceEstimate}
    (fit : HoldsFit scale state (.reserve scope estimate id))
    (fresh : state.reservations.get id = none) (valid : validateEstimate estimate = .ok ())
    (parts : ∀ other, after.parts other = if other ∈ cascade scope then
        ((state.parts other).advance now).addHold (.fromEstimate estimate) else state.parts other)
    (records : after.reservations = state.reservations.insert id (.opened ⟨id, scope, estimate⟩)) :
    Conserved scale after := by
  have tallies : ∀ account, after.reservedFor account =
      if account ∈ cascade scope then
        (state.reservedFor account).addAssign (.fromEstimate estimate)
      else state.reservedFor account := by
    intro account
    rw [← parts_reserved, parts]
    split
    · simp [AccountParts.addHold]
    · rfl
  refine conserved.store records (fun _ dimension => ?_) (fun account dimension => ?_)
    fun account dimension => ?_
  · exact ⟨amount_fromEstimate_nonneg valid dimension,
      (fit (.tenant scope.tenantId) mem_cons_self dimension).1⟩
  · rw [fresh, tallies]
    by_cases member : account ∈ cascade scope
    · rw [if_pos member, held_of_mem rfl member, amount_addAssign (fit account member dimension).2]
      exact Int.add_zero _
    · rw [if_neg member, held_of_not_mem member]
      rfl
  · rw [tallies]
    split
    next member =>
      rw [amount_addAssign (fit account member dimension).2]
      exact (fit account member dimension).2
    · exact conserved.fits account dimension

theorem closed_effect {spent : Option ResourceUsage}
    (found : state.reservations.get id = some record) (active : record.status = .active)
    (parts : ∀ other, after.parts other = if other ∈ record.accounts then
        (((state.parts other).advance now).dropHold record.tally).spend spent
      else state.parts other)
    (records : after.reservations = state.reservations.insert id (record.close spent)) :
    Conserved scale after := by
  have inactive : (record.close spent).status ≠ .active := by
    cases spent <;> exact nofun
  have tallies : ∀ account, after.reservedFor account =
      if account ∈ record.accounts then (state.reservedFor account).subAssign record.tally
      else state.reservedFor account := by
    intro account
    rw [← parts_reserved, parts]
    split
    · cases spent <;> simp [AccountParts.spend, AccountParts.addUsage, AccountParts.dropHold]
    · rfl
  -- The tally of an account is at least what one active record holds against it.
  have released : ∀ account ∈ record.accounts, ∀ dimension,
      (((state.reservedFor account).subAssign record.tally).amount dimension =
        (state.reservedFor account).amount dimension - record.tally.amount dimension) ∧
      dimension.Holds scale
        ((state.reservedFor account).amount dimension - record.tally.amount dimension) := by
    intro account member dimension
    have le := le_sumValues found fun _ _ stored =>
      (conserved.held stored account dimension).1
    rw [← conserved.reserved, held_of_mem active member] at le
    obtain ⟨_, onGrid⟩ := conserved.tidy found active dimension
    have tallyOnGrid : dimension.OnGrid scale ((state.reservedFor account).amount dimension) :=
      (conserved.fits account dimension).onGrid
    have holds := (conserved.fits account dimension).of_le (tallyOnGrid.sub onGrid)
      (by omega) (by omega)
    exact ⟨amount_subAssign le holds, holds⟩
  refine conserved.store records (fun impossible => absurd impossible inactive)
    (fun account dimension => ?_) fun account dimension => ?_
  · rw [found, tallies, Option.map_some, Option.getD_some, show (record.close spent).held account
      dimension = 0 from if_neg fun counted => inactive counted.1]
    by_cases member : account ∈ record.accounts
    · rw [if_pos member, held_of_mem active member, (released account member dimension).1]
      omega
    · rw [if_neg member, held_of_not_mem member]
  · rw [tallies]
    split
    next member =>
      rw [(released account member dimension).1]
      exact (released account member dimension).2
    · exact conserved.fits account dimension

theorem step {op : ResourceOp} (fit : HoldsFit scale state op) :
    Conserved scale (state.apply op now).2 := by
  have effect := state.apply_effect op now
  generalize (state.apply op now).2 = after at effect
  cases effect with
  | nothing same => exact same ▸ conserved
  | limit parts records =>
    refine conserved.of_same (fun account => ?_) records
    rw [← parts_reserved, parts]
    split <;> rfl
  | rolled parts records =>
    refine conserved.of_same (fun account => ?_) records
    rw [← parts_reserved, parts]
    split
    · rw [AccountParts.advance_reserved]
      rfl
    · rfl
  | held fresh valid parts records => exact conserved.held_effect fit fresh valid parts records
  | closed _ found active parts records => exact conserved.closed_effect found active parts records

end Conserved

/-- In every run whose holds fit, the running tallies are what replay computes. -/
theorem governor.holds_conserved (scale : Nat) {state : ResourceState}
    (reached : governor.Reachable (fun before call => HoldsFit scale before call.1) state)
    {order : List ResourceReservationId} (iterated : state.reservations.IteratedBy order)
    (account : ResourceAccount) : state.reservedFor account =
      (rebuildActiveHoldsFromReservations order state).reservedFor account := by
  have conserved : Conserved scale state := by
    refine reached.invariant (Conserved scale) (fun start initial => ?_) ?_
    · exact initial ▸ Conserved.empty scale
    · rintro before ⟨_, _⟩ _ invariant fit rfl
      exact invariant.step fit
  exact (conserved.rebuilt iterated account).symm

end

/-! ## Two runs -/

instance : Fintype ResourceDimension :=
  Fintype.ofList [.usd, .inputTokens, .outputTokens, .wallClockMs, .outputBytes,
    .networkEgressBytes, .processCount, .concurrencySlots]
    fun dimension => by cases dimension <;> decide

instance [Platform] (scale : Nat) (state : ResourceState) (op : ResourceOp) :
    Decidable (HoldsFit scale state op) := by
  cases op <;> unfold HoldsFit <;> infer_instance

namespace governor

local instance : Platform := .exactUtc

def sampleScope : ResourceScope where
  tenantId := ⟨"tenant"⟩
  userId := ⟨"user"⟩
  agentId := none
  projectId := none
  missionId := none
  threadId := none
  invocationId := ⟨1⟩

def sampleTenant : ResourceAccount := .tenant ⟨"tenant"⟩

def askTokens (id : Nat) (tokens : U64) : ResourceOp :=
  .reserve sampleScope { inputTokens := some tokens } ⟨id⟩

/-- Two requests, and the first is given back. -/
def twoRequests (first second : U64) : List (ResourceOp × DateTime) :=
  [(askTokens 1 first, 0), (askTokens 2 second, 0), (.release ⟨1⟩, 0)]

def smallRequests : ResourceState := (twoRequests 5 7).foldl next .empty

def largeRequests : ResourceState := (twoRequests U64.max 1).foldl next .empty

theorem small_holds_conserved : (smallRequests.reservedFor sampleTenant).amount .inputTokens = 7 ∧
      smallRequests.reservedFor sampleTenant =
        (rebuildActiveHoldsFromReservations [⟨1⟩, ⟨2⟩] smallRequests).reservedFor sampleTenant :=
  ⟨by decide +kernel,
    holds_conserved 2 (reachable_foldl (by decide +kernel))
      (by decide +kernel) _⟩

/-- The first request is given back once, whatever comes after it. -/
theorem second_release_refused :
    let asked := [(askTokens 1 5, 0), (askTokens 2 7, 0)].foldl next empty
    asked.Closes ⟨1⟩ (.release ⟨1⟩, 0) ∧
      (smallRequests.next (.release ⟨2⟩, 0) |>.apply (.release ⟨1⟩) 0).1.isOk = false := by
  have closes : ([(askTokens 1 5, 0), (askTokens 2 7, 0)].foldl next empty).Closes ⟨1⟩
      (.release ⟨1⟩, 0) := ⟨by decide +kernel, none, rfl⟩
  exact ⟨closes, ((closes_once empty ⟨1⟩).1 _ _ [(.release ⟨2⟩, 0)] (.release ⟨1⟩, 0) closes).2 rfl⟩

/-- A hold that was cut at the largest count is given back in full, and the hold that is
still active with it. -/
theorem cut_hold_is_lost : governor.Reachable anyStep largeRequests ∧
      largeRequests.reservations.IteratedBy [⟨1⟩, ⟨2⟩] ∧
      largeRequests.reservedFor sampleTenant ≠
        (rebuildActiveHoldsFromReservations [⟨1⟩, ⟨2⟩] largeRequests).reservedFor sampleTenant :=
  ⟨reachable_foldl (allowedAlong_anyStep _ _ _), by decide +kernel, by decide +kernel⟩

end governor

end Ironclaw.Resources
