import Ironclaw.Resources.Journal
import Ironclaw.Resources.Locality

/-!
# Snapshots of the governor

A snapshot is the whole state as JSON with the position in the journal it stands for.  Its
decoder is stricter than the one of the journal: identifiers that the host reserves are
refused everywhere.  The holds are computed anew when a snapshot is loaded, so an account
without holds may have an entry or not; no operation can tell.
-/

namespace Ironclaw.Resources

open HostApi Lib Table Option AccountParts ResourceAccount
open ResourceState (parts_advance reservations_advance)

def ReservationRecord.readable (record : ReservationRecord) : Bool :=
  record.reservation.scope.strictlyReadable && record.accounts.all ResourceAccount.readable

variable {record : ReservationRecord} {account : ResourceAccount}

theorem ReservationRecord.readable_of_strictly
    (strict : record.reservation.scope.strictlyReadable = true)
    (member : account ∈ record.accounts) : account.readable = true := by
  rw [record.accounts_eq] at member
  exact readable_of_cascade strict member

variable [platform : Platform]

namespace ResourceState

/-- Whether the accounts and the records of a state are read back. -/
def readable (state : ResourceState) : Bool :=
  decide (∀ account ∈ state.limits.keys, account.readable = true) &&
    decide (∀ account ∈ state.reservedByAccount.keys, account.readable = true) &&
    decide (∀ account ∈ state.usageByAccount.keys, account.readable = true) &&
    decide (∀ account ∈ state.periodAnchors.keys, account.readable = true) &&
    !state.reservations.anyValue fun record => !record.readable

def viaJson (state : ResourceState) : Option ResourceState :=
  if state.readable && !state.limits.anyValue (fun limits => limits.viaJson.isNone) then
    some { state with
      limits := state.limits.mapValues fun limits => limits.viaJson.getD limits }
  else none

end ResourceState

structure ResourceGovernorSnapshot where
  state : ResourceState
  journalSeq : SeqNo

/-- `ResourceGovernorSnapshot::fresh`. -/
def ResourceGovernorSnapshot.fresh : ResourceGovernorSnapshot := ⟨.empty, 0⟩

/-- `decode_snapshot` of what was written for a snapshot. -/
def decodeSnapshot (written : ResourceGovernorSnapshot) :
    Except ResourceError ResourceGovernorSnapshot :=
  match written.state.viaJson with
  | some state => .ok ⟨state, written.journalSeq⟩
  | none => .error (.storage "decode snapshot")

/-- `read_snapshot`; a missing file stands for the fresh snapshot. -/
def readSnapshot : Option ResourceGovernorSnapshot → Except ResourceError ResourceGovernorSnapshot
  | some written => decodeSnapshot written
  | none => .ok .fresh

/-! ## States that survive a snapshot -/

/-- Everything in the state is read back as it was written. -/
structure ResourceState.Storable (state : ResourceState) : Prop where
  accounts : ∀ account, account.readable = true ∨ state.parts account = ⟨none, none, none, none⟩
  limits : ∀ account, ∀ limits ∈ (state.parts account).limits, limits.viaJson = some limits
  records : ∀ id, ∀ record ∈ state.reservations.get id,
    record.reservation.scope.strictlyReadable = true

namespace ResourceState.Storable

variable {state after : ResourceState}

theorem empty : Storable .empty where
  accounts _ := .inr rfl
  limits _ _ impossible := nomatch impossible
  records _ _ impossible := nomatch impossible

variable (storable : state.Storable)
include storable

theorem readable_of_entry {value : Type} {table : Table ResourceAccount value}
    (entry : AccountParts → Option value) (missing : entry ⟨none, none, none, none⟩ = none)
    (shown : ∀ account, entry (state.parts account) = table.get account) :
    ∀ account ∈ table.keys, account.readable = true := by
  intro account member
  refine (storable.accounts account).resolve_right fun bare => ?_
  have present := mem_keys.mp member
  rw [← shown, bare, missing] at present
  cases present

theorem readable : state.readable = true := by
  have records : state.reservations.anyValue (fun record => !record.readable) = false := by
    refine Bool.eq_false_iff.mpr fun bad => ?_
    obtain ⟨id, record, found, refused⟩ := (anyValue_iff _ _).mp bad
    have strict := storable.records id record found
    have members : record.accounts.all ResourceAccount.readable = true :=
      List.all_eq_true.mpr fun _ member => record.readable_of_strictly strict member
    simp [ReservationRecord.readable, strict, members] at refused
  simp only [ResourceState.readable, Bool.and_eq_true, decide_eq_true_eq, records, Bool.not_false]
  exact ⟨⟨⟨⟨storable.readable_of_entry AccountParts.limits rfl fun _ => rfl,
    storable.readable_of_entry AccountParts.reserved rfl fun _ => rfl⟩,
    storable.readable_of_entry AccountParts.usage rfl fun _ => rfl⟩,
    storable.readable_of_entry periodAnchor rfl fun _ => rfl⟩, trivial⟩

theorem viaJson_eq : state.viaJson = some state := by
  have decodes : state.limits.anyValue (fun limits => limits.viaJson.isNone) = false := by
    refine Bool.eq_false_iff.mpr fun bad => ?_
    obtain ⟨account, limits, found, lost⟩ := (anyValue_iff _ _).mp bad
    rw [storable.limits account limits found] at lost
    cases lost
  have same : state.limits.mapValues (fun limits => limits.viaJson.getD limits) = state.limits := by
    refine ext fun account => ?_
    rw [get_mapValues]
    cases found : state.limits.get account with
    | none => rfl
    | some limits => rw [map_some, storable.limits account limits found, getD_some]
  unfold ResourceState.viaJson
  rw [storable.readable, decodes, same]
  rfl

theorem change {accounts : List ResourceAccount} {changed : ResourceAccount → AccountParts}
    (readable : ∀ account ∈ accounts, account.readable = true)
    (limits : ∀ account, (changed account).limits = (state.parts account).limits)
    (parts : ∀ account, after.parts account =
      if account ∈ accounts then changed account else state.parts account)
    (records : ∀ id, ∀ record ∈ after.reservations.get id,
      record.reservation.scope.strictlyReadable = true) : after.Storable where
  accounts account := by
    rw [parts]
    split
    next member => exact .inl (readable account member)
    · exact storable.accounts account
  limits account := by
    rw [parts]
    split
    · rw [limits]
      exact storable.limits account
    · exact storable.limits account
  records

theorem records_insert {id : ResourceReservationId}
    (strict : record.reservation.scope.strictlyReadable = true) (other : ResourceReservationId)
    (found : ReservationRecord) (stored : found ∈ (state.reservations.insert id record).get other) :
    found.reservation.scope.strictlyReadable = true := by
  rw [get_insert] at stored
  split at stored
  · cases stored
    exact strict
  · exact storable.records other found stored

end ResourceState.Storable

/-- What the operation adds to a state is read back as it was written. -/
def ResourceOp.Storable : ResourceOp → Prop
  | .setLimit account limits => account.readable = true ∧ limits.viaJson = some limits
  | .reserve scope _ _ => scope.strictlyReadable = true
  | _ => True

namespace ResourceState.Storable

variable {state : ResourceState}

variable (storable : state.Storable)
include storable

theorem step {op : ResourceOp} (kept : op.Storable) (now : DateTime) :
    (state.apply op now).2.Storable := by
  have effect := state.apply_effect op now
  generalize (state.apply op now).2 = after at effect
  cases effect with
  | nothing same => exact same ▸ storable
  | @limit account _ parts records =>
    obtain ⟨readable, survives⟩ := kept
    refine ⟨fun other => ?_, fun other => ?_, records ▸ storable.records⟩
    · by_cases same : other = account
      · exact .inl (same ▸ readable)
      · rw [parts, if_neg same]
        exact storable.accounts other
    · rw [parts]
      split
      · exact fun stored same => some.inj same ▸ survives
      · exact storable.limits other
  | rolled parts records =>
    refine storable.change (fun _ member => readable_of_cascade kept member)
      (fun account => ?_) parts (records ▸ storable.records)
    exact advance_limits _ _
  | held _ _ parts records =>
    refine storable.change (fun _ member => readable_of_cascade kept member)
      (fun account => ?_) parts ?_
    · exact advance_limits _ _
    · rw [records]
      exact storable.records_insert kept
  | @closed id record spent _ found _ parts records =>
    have strict := storable.records id record found
    refine storable.change (fun _ member => record.readable_of_strictly strict member)
      (fun account => ?_) parts ?_
    · cases spent <;> exact advance_limits _ _
    · rw [records]
      refine storable.records_insert ?_
      cases spent <;> exact strict

theorem advance (readable : account.readable = true) (now : DateTime) :
    (advancePeriodIfRolledOver state account now).Storable := by
  have readableOnly : ∀ other ∈ [account], other.readable = true := fun other member =>
    List.mem_singleton.mp member ▸ readable
  refine storable.change readableOnly
    (fun other => advance_limits (state.parts other) now) (fun other => ?_) ?_
  · simp only [parts_advance, List.mem_singleton]
  · rw [reservations_advance]
    exact storable.records

theorem hold (strict : record.reservation.scope.strictlyReadable = true) :
    (rebuildHold state record).Storable := by
  by_cases active : record.status = .active
  · have parts : ∀ account, (rebuildHold state record).parts account =
        if account ∈ record.accounts then (state.parts account).addHold record.tally
        else state.parts account := by
      intro account
      rw [parts_rebuildHold]
      simp [active]
    refine storable.change (fun _ member => record.readable_of_strictly strict member) ?_ parts ?_
    · exact fun _ => rfl
    · rw [reservations_rebuildHold]
      exact storable.records
  · rw [rebuildHold, if_neg active]
    exact storable

theorem rebuilt (order : List ResourceReservationId) :
    (rebuildActiveHoldsFromReservations order state).Storable := by
  have cleared : ResourceState.Storable { state with reservedByAccount := .empty } := by
    refine ⟨fun account => ?_, storable.limits, storable.records⟩
    refine (storable.accounts account).imp_right fun bare => ?_
    exact congrArg (fun parts : AccountParts => { parts with reserved := none }) bare
  have strict : ∀ record ∈ state.reservations.valuesIn order,
      record.reservation.scope.strictlyReadable = true := by
    intro record member
    obtain ⟨id, _, found⟩ := List.mem_filterMap.mp member
    exact storable.records id record found
  unfold rebuildActiveHoldsFromReservations
  generalize state.reservations.valuesIn order = records at strict
  generalize ({ state with reservedByAccount := .empty } : ResourceState) = start at cleared
  induction records generalizing start with
  | nil => exact cleared
  | cons record _ ih =>
    exact ih (fun other member => strict other (List.mem_cons_of_mem _ member)) _
      (cleared.hold (strict record List.mem_cons_self))

end ResourceState.Storable

/-! ## States with the same holds -/

/-- The entries are the same, and a missing hold counts as none. -/
structure AccountParts.SameHolds (first second : AccountParts) : Prop where
  limits : first.limits = second.limits
  reserved : first.reserved.getD .zero = second.reserved.getD .zero
  usage : first.usage = second.usage
  periodAnchor : first.periodAnchor = second.periodAnchor

namespace AccountParts.SameHolds

variable {first second third : AccountParts}

theorem trans (one : first.SameHolds second) (two : second.SameHolds third) :
    first.SameHolds third where
  limits := one.limits.trans two.limits
  reserved := one.reserved.trans two.reserved
  usage := one.usage.trans two.usage
  periodAnchor := one.periodAnchor.trans two.periodAnchor

section

variable (same : first.SameHolds second)
include same

theorem advance (now : DateTime) : (first.advance now).SameHolds (second.advance now) := by
  have expired : first.expired now = second.expired now := by
    simp only [expired, same.limits, same.periodAnchor]
  have windowEnd : first.windowEnd now = second.windowEnd now := by
    simp only [windowEnd, same.limits]
  unfold AccountParts.advance
  rw [expired]
  split
  · exact ⟨same.limits, same.reserved, rfl, windowEnd⟩
  · exact same

theorem setLimit (limits : ResourceLimits) (now : DateTime) :
    (first.setLimit limits now).SameHolds (second.setLimit limits now) where
  limits := rfl
  reserved := same.reserved
  usage := by simp only [AccountParts.setLimit, same.limits, same.usage]
  periodAnchor := rfl

theorem addHold (tally : ResourceTally) :
    (first.addHold tally).SameHolds (second.addHold tally) where
  __ := same
  reserved := by simp only [AccountParts.addHold, same.reserved]

theorem dropHold (tally : ResourceTally) :
    (first.dropHold tally).SameHolds (second.dropHold tally) where
  __ := same
  reserved := by simp only [AccountParts.dropHold, same.reserved]

theorem spend (spent : Option ResourceUsage) :
    (first.spend spent).SameHolds (second.spend spent) := by
  cases spent with
  | none => exact same
  | some =>
    refine ⟨same.limits, same.reserved, ?_, same.periodAnchor⟩
    simp only [AccountParts.spend, AccountParts.addUsage, same.usage]

end

/-- No operation can tell a missing hold from an empty one. -/
theorem congruence : AccountParts.Congruence AccountParts.SameHolds where
  limits same := same.limits
  reserved same := same.reserved
  usage same := same.usage
  periodAnchor same := same.periodAnchor
  setLimit same := same.setLimit
  advance same := same.advance
  addHold same := same.addHold
  dropHold same := same.dropHold
  spend same := same.spend

end AccountParts.SameHolds

/-- The states differ at most in whether an account without holds has an entry for them. -/
abbrev ResourceState.SameHolds (first second : ResourceState) : Prop :=
  ResourceState.Everywhere AccountParts.SameHolds first second

variable {scale : Nat}

namespace ResourceState.SameHolds

variable {first second third : ResourceState}

theorem refl (state : ResourceState) : state.SameHolds state := ⟨fun _ => ⟨rfl, rfl, rfl, rfl⟩, rfl⟩

theorem trans (one : first.SameHolds second) (two : second.SameHolds third) :
    first.SameHolds third :=
  ⟨fun account => (one.parts account).trans (two.parts account), one.records.trans two.records⟩

theorem conserved (same : first.SameHolds second)
    (conserved : Conserved scale second) : Conserved scale first :=
  conserved.of_same (fun account => (same.parts account).reserved) same.records

theorem rebuilt {state : ResourceState} (conserved : Conserved scale state)
    {order : List ResourceReservationId} (iterated : state.reservations.IteratedBy order) :
    (rebuildActiveHoldsFromReservations order state).SameHolds state := by
  refine ⟨fun account => ?_, ?_⟩
  · obtain ⟨_, parts⟩ := parts_foldl_rebuildHold (state.reservations.valuesIn order)
      { state with reservedByAccount := .empty } account
    refine ⟨?_, conserved.rebuilt iterated account, ?_, ?_⟩
    all_goals
      unfold rebuildActiveHoldsFromReservations
      rw [parts]
      rfl
  · exact foldl_keeps ResourceState.reservations _ reservations_rebuildHold _ _

end ResourceState.SameHolds

/-! ## Deltas -/

namespace ResourceGovernorDelta

/-- What the delta adds to a state is read back from a snapshot as it is. -/
def Storable : ResourceGovernorDelta → Prop
  | .setLimit _ limits _ => ∀ decoded, limits.viaJson = some decoded →
      decoded.viaJson = some decoded
  | .reserve scope _ _ _ => scope.readable = true → scope.strictlyReadable = true
  | _ => True

/-- The holds that the delta adds fit. -/
def Fits (scale : Nat) (state : ResourceState) : ResourceGovernorDelta → Prop
  | .reserve scope estimate id _ => HoldsFit scale state (.reserve scope estimate id)
  | _ => True

variable {state after first second : ResourceState} {delta decoded : ResourceGovernorDelta}

theorem decoded_cases (reads : delta.viaJson = some decoded) :
    (∃ op now, decoded = ofOp op now ∧ (delta.Storable → op.Storable) ∧
        ∀ scale state, delta.Fits scale state → HoldsFit scale state op) ∨
      ∃ account now, decoded = .accountSnapshot account now ∧ account.readable = true := by
  cases delta with
  | setLimit account _ time =>
    simp only [viaJson, ite_none_right_eq_some, map_eq_some_iff] at reads
    obtain ⟨readable, read, survives, rfl⟩ := reads
    exact .inl ⟨.setLimit account read, time, rfl,
      fun storable => ⟨readable, storable read survives⟩, fun _ _ _ => trivial⟩
  | reserve scope estimate id time =>
    simp only [viaJson, ite_none_right_eq_some, some.injEq] at reads
    obtain ⟨readable, rfl⟩ := reads
    exact .inl ⟨.reserve scope estimate id, time, rfl, fun storable => storable readable,
      fun _ _ fits => fits⟩
  | reconcile id actual time =>
    cases reads
    exact .inl ⟨.reconcile id actual, time, rfl, fun _ => trivial, fun _ _ _ => trivial⟩
  | release id time =>
    cases reads
    exact .inl ⟨.release id, time, rfl, fun _ => trivial, fun _ _ _ => trivial⟩
  | accountSnapshot account time =>
    simp only [viaJson, ite_none_right_eq_some, some.injEq] at reads
    obtain ⟨readable, rfl⟩ := reads
    exact .inr ⟨account, time, rfl, readable⟩

theorem replay_cases (replayed : delta.replay state = .ok after) :
    (∃ op now, after = (state.apply op now).2 ∧ (delta.Storable → op.Storable) ∧
        ∀ scale state, delta.Fits scale state → HoldsFit scale state op) ∨
      ∃ account now, after = advancePeriodIfRolledOver state account now ∧
        account.readable = true := by
  unfold replay at replayed
  cases reads : delta.viaJson with
  | none =>
    rw [reads] at replayed
    cases replayed
  | some =>
    rw [reads] at replayed
    rcases decoded_cases reads with ⟨op, now, rfl, storable, fits⟩ | ⟨account, now, rfl, readable⟩
    · refine .inl ⟨op, now, ?_, storable, fits⟩
      dsimp only at replayed
      rw [applyTo_ofOp_eq] at replayed
      generalize (state.apply op now).1.result = result at replayed
      cases result with
      | error => cases replayed
      | ok => exact (Except.ok.inj replayed).symm
    · exact .inr ⟨account, now, (Except.ok.inj replayed).symm, readable⟩

theorem replay_storable (kept : delta.Storable) (storable : state.Storable)
    (replayed : delta.replay state = .ok after) : after.Storable := by
  rcases replay_cases replayed with ⟨_, now, rfl, opStorable, _⟩ | ⟨_, now, rfl, readable⟩
  · exact storable.step (opStorable kept) now
  · exact storable.advance readable now

theorem replay_conserved (fits : delta.Fits scale state)
    (conserved : Conserved scale state) (replayed : delta.replay state = .ok after) :
    Conserved scale after := by
  rcases replay_cases replayed with ⟨_, now, rfl, _, opFits⟩ | ⟨_, _, rfl, _⟩
  · exact conserved.step (opFits scale state fits)
  refine conserved.of_same (fun other => ?_) (reservations_advance _ _ _)
  rw [← ResourceState.parts_reserved, parts_advance]
  split
  · rw [advance_reserved]
    rfl
  · rfl

theorem replay_same (same : first.SameHolds second) (delta : ResourceGovernorDelta) :
    SameOutcome ResourceState.SameHolds (delta.replay first) (delta.replay second) := by
  unfold replay
  cases reads : delta.viaJson with
  | none => exact .error _
  | some =>
    rcases decoded_cases reads with ⟨op, now, rfl, _⟩ | ⟨_, now, rfl, _⟩
    · obtain ⟨answers, after⟩ := ResourceState.apply_everywhere
        AccountParts.SameHolds.congruence same op now
      dsimp only
      rw [applyTo_ofOp_eq, applyTo_ofOp_eq, answers]
      cases (second.apply op now).1.result with
      | error error => exact .error error
      | ok => exact .ok after
    · refine .ok ⟨fun other => ?_, ?_⟩
      · rw [parts_advance, parts_advance]
        split
        · exact (same.parts other).advance now
        · exact same.parts other
      · rw [reservations_advance, reservations_advance]
        exact same.records

end ResourceGovernorDelta

end Ironclaw.Resources
