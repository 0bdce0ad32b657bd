import Ironclaw.Resources.Authority
import Ironclaw.Resources.Ledgers

/-!
# The persistent governor and the governor in memory

Both governors run the same operations, but the governor in memory keeps the windows that
a denied reservation has rolled over and the persistent one drops them with the
projection.  They answer alike as long as no denied reservation meets an ended window.
-/

namespace Ironclaw.Resources

open HostApi Lib ResourceState GovernorJob DateTime ResourceAccount ResourceAuthority System

section

variable [platform : Platform]

/-! ## Refused operations -/

/-- Whether a refused request leaves windows behind that only one governor has rolled over:
none of its accounts has an ended window, or they admit it. -/
def RolloverKept (state : ResourceState) (call : ResourceOp × DateTime) : Prop :=
  match call.1 with
  | .reserve scope estimate id =>
    (∀ account ∈ cascade scope, (state.parts account).expired call.2 = false) ∨
    (validateEstimate estimate = .ok () → state.reservations.get id = none →
      state.admits scope estimate call.2 = true)
  | _ => True

variable {state : ResourceState} {id : ResourceReservationId} {now : DateTime}

theorem rolledOver_of_current {accounts : List ResourceAccount} (nodup : accounts.Nodup)
    (current : ∀ account ∈ accounts, (state.parts account).expired now = false) :
    state.rolledOver accounts now = state := by
  refine ext_parts (fun account => ?_) (state.reservations_rolledOver accounts now)
  rw [state.parts_rolledOver nodup]
  split
  next member =>
    rw [AccountParts.advance, current account member]
    rfl
  · rfl

theorem reserve_of_refused {scope : ResourceScope} {estimate : ResourceEstimate}
    (kept : RolloverKept state (.reserve scope estimate id, now))
    (refused : (reserveWithOutcomeInState state scope estimate id now).1.isOk = false) :
    (reserveWithOutcomeInState state scope estimate id now).2 = state := by
  cases valid : validateEstimate estimate with
  | error error => rw [reserve_invalid valid]
  | ok =>
    cases fresh : state.reservations.get id with
    | some => rw [reserve_known valid fresh]
    | none =>
      rw [reserve_fresh valid fresh] at refused ⊢
      cases checked : evaluateCascade (state.rolledOver (cascade scope) now)
          (.fromEstimate estimate) (cascade scope) [] with
      | ok =>
        rw [checked] at refused
        cases refused
      | error =>
        rcases kept with current | admitted
        · exact rolledOver_of_current (cascade_nodup scope) current
        · have passes : state.admits scope estimate now = true := admitted valid fresh
          rw [admits, checked] at passes
          cases passes

theorem apply_of_refused {op : ResourceOp} (kept : RolloverKept state (op, now))
    (refused : (state.apply op now).1.isOk = false) : (state.apply op now).2 = state := by
  cases op with
  | setLimit => cases refused
  | reserve _ _ id => exact reserve_of_refused kept refused
  | reconcile _ actual => exact close_of_refused _ (some actual) now refused
  | release => exact close_of_refused _ none now refused

/-! ## Both governors -/

variable [hasher : AccountHasher]

def callBoth (pair : ResourceAuthority × ResourceState) (call : ResourceOp × DateTime) :
    ResourceAuthority × ResourceState :=
  ((pair.1.call call.1 call.2).2, pair.2.next call)

/-- The persistent governor and the governor in memory under the same calls. -/
def governors : System (ResourceAuthority × ResourceState) (ResourceOp × DateTime) :=
  ofFunction (fun pair => pair = (.empty, .empty)) callBoth

variable {authority : ResourceAuthority}

namespace ResourceAuthority

/-- A call is a job on the accounts that the operation works on in the state, or closes a
reservation that nobody knows. -/
def CallsAs (authority : ResourceAuthority) (state : ResourceState) (op : ResourceOp)
    (now : DateTime) : Prop :=
  (∃ accounts, accounts.Nodup ∧ op.WorksOn state accounts ∧
    authority.call op now = run ⟨op, accounts, now⟩ authority) ∨
  ∃ id spent, op = .closing id spent ∧ state.reservations.get id = none ∧
    authority.call op now = (.closed (.error (.unknownReservation id)), authority)

theorem call_closing (id : ResourceReservationId) (spent : Option ResourceUsage) (now : DateTime) :
    authority.call (.closing id spent) now = match authority.reservations.get id with
      | none => (.closed (.error (.unknownReservation id)), authority)
      | some record => run ⟨.closing id spent, record.accounts, now⟩ authority := by
  cases spent <;> rfl

variable (shows : authority.Shows state)
include shows

theorem closing_callsAs (id : ResourceReservationId) (spent : Option ResourceUsage)
    (now : DateTime) : authority.CallsAs state (.closing id spent) now := by
  have same : authority.reservations.get id = state.reservations.get id := shows (.record id)
  unfold CallsAs
  rw [call_closing, same]
  cases known : state.reservations.get id with
  | none => exact .inr ⟨id, spent, rfl, known, rfl⟩
  | some record =>
    refine .inl ⟨_, record.accounts_nodup, ResourceOp.worksOn_closing.mpr ?_, rfl⟩
    intro _ found
    rw [Option.some.inj (known.symm.trans found)]

variable (op : ResourceOp)

theorem callsAs (now : DateTime) : authority.CallsAs state op now := by
  cases op with
  | setLimit account => exact .inl ⟨_, List.nodup_singleton account, rfl, rfl⟩
  | reserve scope _ id => exact .inl ⟨_, cascade_nodup scope, rfl, rfl⟩
  | reconcile id actual => exact closing_callsAs shows id (some actual) now
  | release id => exact closing_callsAs shows id none now

theorem call_answer (now : DateTime) : (authority.call op now).1 = (state.apply op now).1 := by
  rcases callsAs shows op now with
    ⟨accounts, nodup, worksOn, runs⟩ | ⟨id, spent, rfl, known, runs⟩
  · rw [runs, run]
    split <;> exact work_answer ⟨op, accounts, now⟩ shows nodup worksOn
  · rw [runs, close_unknown known]

/-- An operation that is done leaves the authority as it leaves the state, and one that is
not done leaves the authority as it was. -/
theorem shows_call (now : DateTime) : (authority.call op now).2.Shows
      (if (state.apply op now).1.isOk then (state.apply op now).2 else state) := by
  rcases callsAs shows op now with
    ⟨accounts, nodup, worksOn, runs⟩ | ⟨_, _, rfl, known, runs⟩
  · have answer := work_answer ⟨op, accounts, now⟩ shows nodup worksOn
    rw [runs, run, change, answer]
    split
    next done =>
      split at done
      · cases done
      · rename_i refused
        rw [if_neg refused]
        exact shows
    next _ done =>
      split at done
      · rename_i granted
        cases done
        rw [if_pos granted]
        exact shows_writeBack ⟨op, accounts, now⟩ shows nodup worksOn
      · cases done
  · rw [runs, close_unknown known]
    exact shows

end ResourceAuthority

theorem shows_callBoth (shows : authority.Shows state) {call : ResourceOp × DateTime}
    (kept : RolloverKept state call) :
    (callBoth (authority, state) call).1.Shows (callBoth (authority, state) call).2 := by
  have called := shows_call shows call.1 call.2
  cases done : (state.apply call.1 call.2).1.isOk with
  | true => rwa [if_pos done] at called
  | false =>
    rw [if_neg (Bool.not_eq_true _ ▸ done)] at called
    rwa [callBoth, next, apply_of_refused kept done]

/-- In every run in which no request with an ended window is denied, both governors give the
same answer to every call. -/
theorem governors.answer_alike {pair : ResourceAuthority × ResourceState}
    (reached : governors.Reachable (fun before call => RolloverKept before.2 call) pair)
    (op : ResourceOp) (now : DateTime) : (pair.1.call op now).1 = (pair.2.apply op now).1 := by
  have shows : pair.1.Shows pair.2 := by
    refine reached.invariant (fun pair => pair.1.Shows pair.2) ?_ ?_
    · rintro start rfl
      exact shows_empty
    · rintro ⟨_, _⟩ _ _ shows kept rfl
      exact shows_callBoth shows kept
  exact call_answer shows op now

end

/-! ## A granted request and a denied one -/

namespace governors

local instance : Platform := .exactUtc

local instance : AccountHasher := ⟨fun _ => 0⟩

local instance (estimate : ResourceEstimate) : Decidable (validateEstimate estimate = .ok ()) :=
  match validateEstimate estimate with
  | .ok () => .isTrue rfl
  | .error _ => .isFalse nofun

local instance (state : ResourceState) (call : ResourceOp × DateTime) :
    Decidable (RolloverKept state call) := by
  unfold RolloverKept
  split <;> infer_instance

def after (calls : List (ResourceOp × DateTime)) : ResourceAuthority × ResourceState :=
  calls.foldl callBoth (.empty, .empty)

/-- Ten tokens on the first day. -/
def firstDay : List (ResourceOp × DateTime) :=
  [(ledgers.dailyLimit, 0), (governor.askTokens 1 10, hours 1), (ledgers.spendTokens 1 10, hours 2)]

/-- A request on the second day that is granted and spent at hour 30. -/
def secondDay : List (ResourceOp × DateTime) :=
  [(governor.askTokens 3 10, hours 30), (ledgers.spendTokens 3 10, hours 30)]

/-- A request at hour 25 that asks for more than the limit. -/
def deniedCall : ResourceOp × DateTime := (governor.askTokens 2 11, hours 25)

theorem reachable_after {guard : ResourceAuthority × ResourceState → ResourceOp × DateTime → Prop}
    {calls : List (ResourceOp × DateTime)}
    (allowed : System.AllowedAlong guard callBoth (.empty, .empty) calls) :
    governors.Reachable guard (after calls) := by
  have start : governors.Reachable guard (.empty, .empty) := .start rfl
  exact start.followAllowed calls allowed

theorem second_day_is_alike :
    ((after (firstDay ++ secondDay)).2.usageFor governor.sampleTenant).amount .inputTokens = 10 ∧
      ((after (firstDay ++ secondDay)).1.call (governor.askTokens 4 10) (hours 50)).1 =
        ((after (firstDay ++ secondDay)).2.apply (governor.askTokens 4 10) (hours 50)).1 :=
  ⟨by decide +kernel, answer_alike (reachable_after (by decide +kernel)) _ _⟩

/-- The denied request starts the window of the second day in memory only: it ends at hour 49
there, and at hour 54 for the persistent governor, which denies at hour 50 what the governor
in memory grants. -/
theorem denied_request_splits :
    (firstDay ++ deniedCall :: secondDay).Pairwise (fun first second => first.2 ≤ second.2) ∧
      governors.Reachable anyStep (after (firstDay ++ deniedCall :: secondDay)) ∧
      ((after (firstDay ++ deniedCall :: secondDay)).1.call
        (governor.askTokens 4 10) (hours 50)).1.isOk = false ∧
      ((after (firstDay ++ deniedCall :: secondDay)).2.apply
        (governor.askTokens 4 10) (hours 50)).1.isOk = true :=
  ⟨by decide +kernel, reachable_after (allowedAlong_anyStep _ _ _), by decide +kernel,
    by decide +kernel⟩

end governors

end Ironclaw.Resources
