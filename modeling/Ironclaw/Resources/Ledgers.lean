import Ironclaw.Resources.Grants

/-!
# The ledgers of periodic budgets

The usage of an account with a periodic budget should be what was spent against it in the
window that its anchor ends.  Windows are rolled over when a reservation or its settlement
finds them ended.  Setting a limit, however, moves the anchor without looking at the
usage: what an ended window has counted is carried into the next one, and a window that is
still open is stretched.
-/

namespace Ironclaw.Resources

open HostApi Lib DateTime BudgetPeriod ResourceTally ResourceAccount ResourceLimits ResourceState

structure Spend where
  time : DateTime
  accounts : List ResourceAccount
  actual : ResourceUsage

/-- The time of the last call and everything that was spent, the latest last. -/
structure History where
  clock : Option DateTime
  spends : List Spend

/-- What a settlement counts for an account from an instant on. -/
def Spend.counted (account : ResourceAccount) (start : DateTime) (dimension : ResourceDimension)
    (spend : Spend) : Int :=
  if account ∈ spend.accounts ∧ start ≤ spend.time then
    (fromUsage spend.actual).amount dimension
  else 0

namespace History

def start : History := ⟨none, []⟩

variable (history : History)

/-- The sum of what was spent against an account from an instant on. -/
def spentSince (account : ResourceAccount) (start : DateTime)
    (dimension : ResourceDimension) : Int :=
  (history.spends.map (Spend.counted account start dimension)).sum

/-- Nothing was spent against the account at the instant or later. -/
def UnspentSince (account : ResourceAccount) (start : DateTime) : Prop :=
  ∀ spend ∈ history.spends, account ∈ spend.accounts → spend.time < start

/-- The clock does not run backwards. -/
def NotAfter (now : DateTime) : Prop := ∀ last ∈ history.clock, last ≤ now

def tick (now : DateTime) : History := { history with clock := some now }

def push (spend : Spend) : History :=
  { history with spends := history.spends ++ [spend] }

theorem spentSince_of_unspent {history : History} {account : ResourceAccount} {start : DateTime}
    (unspent : history.UnspentSince account start) (dimension : ResourceDimension) :
    history.spentSince account start dimension = 0 := by
  unfold spentSince
  refine List.sum_eq_zero fun amount member => ?_
  obtain ⟨spend, listed, rfl⟩ := List.mem_map.mp member
  exact if_neg fun counted => absurd (unspent spend listed counted.1) (not_lt.mpr counted.2)

theorem spentSince_push (spend : Spend) (account : ResourceAccount)
    (start : DateTime) (dimension : ResourceDimension) :
    (history.push spend).spentSince account start dimension =
      history.spentSince account start dimension + spend.counted account start dimension := by
  simp [spentSince, push]

end History

section

variable [platform : Platform]

/-- What a call adds to the history: a settlement is kept with the accounts it counts for. -/
def History.record (state : ResourceState) (call : ResourceOp × DateTime) (history : History) :
    History :=
  match (state.apply call.1 call.2).1 with
  | .closed (.ok ⟨_, scope, _, _, some actual⟩) =>
    (history.tick call.2).push ⟨call.2, cascade scope, actual⟩
  | _ => history.tick call.2

def ledgers : System (ResourceState × History) (ResourceOp × DateTime) :=
  governor.withHistory .start History.record

/-- The usage of every account with a periodic budget is what was spent against it since the
start of the window that its anchor ends. -/
def CountsWindows (state : ResourceState) (history : History) : Prop :=
  ∀ account limits anchor, state.limits.get account = some limits →
    limits.period ≠ .perInvocation → state.periodAnchors.get account = some anchor →
    ∀ dimension, (state.usageFor account).amount dimension =
      history.spentSince account (limits.period.windowStart anchor) dimension

/-- The new limits of an account keep its window, or open one in which nothing was spent
with no usage left from the same period. -/
def CleanLimit (state : ResourceState) (history : History) (account : ResourceAccount)
    (limits : ResourceLimits) (now : DateTime) : Prop :=
  limits.period.Regular ∧
    let samePeriod := (state.limits.get account).map period = some limits.period
    (samePeriod ∧ state.periodAnchors.get account = some (periodBounds limits.period now).2) ∨
      ((samePeriod → ∀ dimension, (state.usageFor account).amount dimension = 0) ∧
        history.UnspentSince account (periodBounds limits.period now).1)

/-- The usage of the accounts that a settlement counts for stays within their dimensions,
dollars with at most `scale` decimal places. -/
def UsageFits (scale : Nat) (state : ResourceState) (id : ResourceReservationId)
    (actual : ResourceUsage) (now : DateTime) : Prop :=
  ∀ record ∈ state.reservations.get id, ∀ account ∈ record.accounts,
    ∀ dimension : ResourceDimension, dimension.Holds scale
      ((state.currentUsage account now).amount dimension + (fromUsage actual).amount dimension)

/-- What a call has to meet for the ledgers to count the current windows only. -/
def WindowsClean (scale : Nat) (state : ResourceState) (history : History)
    (call : ResourceOp × DateTime) : Prop :=
  match call.1 with
  | .setLimit account limits =>
    limits.period ≠ .perInvocation → CleanLimit state history account limits call.2
  | .reconcile id actual => UsageFits scale state id actual call.2
  | _ => True

/-! ## One account -/

/-- The ledger of one account with a window that was opened at some instant. -/
structure Window (history : History) (account : ResourceAccount) (parts : AccountParts)
    (period : BudgetPeriod) (opened : DateTime) : Prop where
  regular : period.Regular
  anchor : parts.periodAnchor = some (periodBounds period opened).2
  notAfter : ∃ last ∈ history.clock, opened ≤ last
  before : history.UnspentSince account (periodBounds period opened).2
  usage : ∀ dimension, (parts.usage.getD .zero).amount dimension =
    history.spentSince account (periodBounds period opened).1 dimension

/-- An account with a periodic budget has a window. -/
def Accounted (history : History) (account : ResourceAccount) (parts : AccountParts) : Prop :=
  ∀ limits, parts.limits = some limits → limits.period ≠ .perInvocation →
    ∃ opened, Window history account parts limits.period opened

namespace Window

variable {history : History} {account : ResourceAccount} {parts : AccountParts}
  {period : BudgetPeriod} {opened now : DateTime}

theorem tick (window : Window history account parts period opened)
    (notAfter : history.NotAfter now) : Window (history.tick now) account parts period opened where
  __ := window
  notAfter := by
    obtain ⟨last, shown, le⟩ := window.notAfter
    exact ⟨now, rfl, le.trans (notAfter last shown)⟩

theorem congr (window : Window history account parts period opened) {other : AccountParts}
    (anchor : other.periodAnchor = parts.periodAnchor) (usage : other.usage = parts.usage) :
    Window history account other period opened where
  __ := window
  anchor := anchor.trans window.anchor
  usage := by
    rw [usage]
    exact window.usage

theorem opens (periodic : period ≠ .perInvocation) (regular : period.Regular)
    (anchor : parts.periodAnchor = some (periodBounds period now).2)
    (unused : ∀ dimension, (parts.usage.getD .zero).amount dimension = 0)
    (unspent : history.UnspentSince account (periodBounds period now).1) :
    Window (history.tick now) account parts period now where
  regular
  anchor
  notAfter := ⟨now, rfl, le_refl now⟩
  before spend listed counted := (unspent spend listed counted).trans
    ((start_le regular now).trans_lt (lt_end periodic regular now))
  usage dimension := by
    have ticked : (history.tick now).UnspentSince account (periodBounds period now).1 := unspent
    rw [unused, History.spentSince_of_unspent ticked]

theorem spend (window : Window history account parts period opened) {spend : Spend}
    (counted : account ∈ spend.accounts) (notBefore : opened ≤ spend.time)
    (inside : spend.time < (periodBounds period opened).2) {scale : Nat}
    (fits : ∀ dimension : ResourceDimension, dimension.Holds scale
      ((parts.usage.getD .zero).amount dimension + (fromUsage spend.actual).amount dimension)) :
    Window (history.push spend) account (parts.addUsage (.fromUsage spend.actual)) period
      opened where
  __ := window
  before other listed against := by
    rcases List.mem_append.mp listed with earlier | last
    · exact window.before other earlier against
    · rw [List.mem_singleton.mp last]
      exact inside
  usage dimension := by
    have starts : (periodBounds period opened).1 ≤ spend.time :=
      (start_le window.regular opened).trans notBefore
    rw [History.spentSince_push, ← window.usage, Spend.counted, if_pos ⟨counted, starts⟩]
    exact amount_addAssign (fits dimension)

theorem spend_elsewhere (window : Window history account parts period opened) {spend : Spend}
    (elsewhere : account ∉ spend.accounts) :
    Window (history.push spend) account parts period opened where
  __ := window
  before other listed against := by
    rcases List.mem_append.mp listed with earlier | last
    · exact window.before other earlier against
    · rw [List.mem_singleton.mp last] at against
      exact absurd against elsewhere
  usage dimension := by
    rw [History.spentSince_push, ← window.usage, Spend.counted,
      if_neg fun counted => elsewhere counted.1, Int.add_zero]

end Window

namespace Accounted

variable {history : History} {account : ResourceAccount} {parts : AccountParts} {now : DateTime}

section

variable (accounted : Accounted history account parts)
include accounted

theorem tick (notAfter : history.NotAfter now) : Accounted (history.tick now) account parts := by
  intro limits limited periodic
  obtain ⟨opened, window⟩ := accounted limits limited periodic
  exact ⟨opened, window.tick notAfter⟩

theorem congr {other : AccountParts} (limits : other.limits = parts.limits)
    (anchor : other.periodAnchor = parts.periodAnchor) (usage : other.usage = parts.usage) :
    Accounted history account other := by
  intro stored limited periodic
  obtain ⟨opened, window⟩ := accounted stored (limits ▸ limited) periodic
  exact ⟨opened, window.congr anchor usage⟩

theorem advance (notAfter : history.NotAfter now) {limits : ResourceLimits}
    (limited : parts.limits = some limits) (periodic : limits.period ≠ .perInvocation) :
    ∃ opened, Window (history.tick now) account (parts.advance now) limits.period opened ∧
      opened ≤ now ∧ now < (periodBounds limits.period opened).2 := by
  obtain ⟨opened, window⟩ := accounted limits limited periodic
  obtain ⟨last, shown, openedBefore⟩ := window.notAfter
  have ended : parts.expired now = decide (now ≥ (periodBounds limits.period opened).2) := by
    unfold AccountParts.expired
    rw [limited, window.anchor]
    simp [periodic, periodHasRolledOver]
  unfold AccountParts.advance
  split
  next expired =>
    rw [ended, decide_eq_true_eq] at expired
    have starts := end_le_start periodic window.regular expired
    refine ⟨now, .opens periodic window.regular ?_ (fun dimension => ?_) ?_, le_refl now,
      lt_end periodic window.regular now⟩
    · simp [AccountParts.windowEnd, limited]
    · exact amount_zero dimension
    · exact fun spend listed against => (window.before spend listed against).trans_le starts
  next current =>
    rw [ended, decide_eq_true_eq] at current
    exact ⟨opened, window.tick notAfter, openedBefore.trans (notAfter last shown),
      not_le.mp current⟩

theorem advanced (notAfter : history.NotAfter now) :
    Accounted (history.tick now) account (parts.advance now) := by
  intro limits limited periodic
  rw [AccountParts.advance_limits] at limited
  obtain ⟨opened, window, _⟩ := accounted.advance notAfter limited periodic
  exact ⟨opened, window⟩

theorem spend (notAfter : history.NotAfter now) {accounts : List ResourceAccount}
    (counted : account ∈ accounts) {actual : ResourceUsage} {scale : Nat}
    (fits : ∀ dimension : ResourceDimension, dimension.Holds scale
      (((parts.advance now).usage.getD .zero).amount dimension +
        (fromUsage actual).amount dimension)) :
    Accounted ((history.tick now).push ⟨now, accounts, actual⟩) account
      ((parts.advance now).addUsage (.fromUsage actual)) := by
  intro limits limited periodic
  have stored : parts.limits = some limits := (AccountParts.advance_limits parts now) ▸ limited
  obtain ⟨opened, window, openedBefore, inside⟩ := accounted.advance notAfter stored periodic
  exact ⟨opened, window.spend counted openedBefore inside fits⟩

theorem spend_elsewhere {spend : Spend} (elsewhere : account ∉ spend.accounts) :
    Accounted (history.push spend) account parts := by
  intro limits limited periodic
  obtain ⟨opened, window⟩ := accounted limits limited periodic
  exact ⟨opened, window.spend_elsewhere elsewhere⟩

end

theorem setLimit {state : ResourceState}
    (accounted : Accounted history account (state.parts account))
    (notAfter : history.NotAfter now) {limits : ResourceLimits}
    (clean : limits.period ≠ .perInvocation → CleanLimit state history account limits now) :
    Accounted (history.tick now) account ((state.parts account).setLimit limits now) := by
  rintro _ limited periodic
  cases limited
  obtain ⟨regular, ⟨samePeriod, sameAnchor⟩ | ⟨unused, unspent⟩⟩ := clean periodic
  · obtain ⟨prior, found, period⟩ := Option.map_eq_some_iff.mp samePeriod
    obtain ⟨opened, window⟩ := accounted prior found (period ▸ periodic)
    rw [period] at window
    refine ⟨opened, (window.tick notAfter).congr sameAnchor.symm ?_⟩
    exact if_neg (not_not.mpr samePeriod)
  · refine ⟨now, .opens periodic regular rfl (fun dimension => ?_) unspent⟩
    unfold AccountParts.setLimit
    split
    · exact amount_zero dimension
    next kept => exact unused (not_not.mp kept) dimension

end Accounted

/-! ## Runs -/

def Balanced (ledger : ResourceState × History) : Prop :=
  ∀ account, Accounted ledger.2 account (ledger.1.parts account)

variable {scale : Nat} {now : DateTime} {history : History} {state : ResourceState}

theorem Balanced.closed (balanced : Balanced (state, history)) (notAfter : history.NotAfter now)
    (id : ResourceReservationId) (spent : Option ResourceUsage)
    (clean : WindowsClean scale state history (.closing id spent, now)) :
    Balanced ((state.apply (.closing id spent) now).2,
      history.record state (.closing id spent, now)) := by
  rcases state.close_cases id spent now with ⟨_, refused⟩ | ⟨record, found, _, _, done⟩
  · intro account
    unfold History.record
    rw [refused]
    exact (balanced account).tick notAfter
  · intro account
    unfold History.record
    rw [done]
    cases spent with
    | none =>
      change Accounted (history.tick now) account ((state.closedBy id record none now).parts _)
      rw [state.parts_closedBy]
      split
      · exact ((balanced account).advanced notAfter).congr rfl rfl rfl
      · exact (balanced account).tick notAfter
    | some actual =>
      change Accounted ((history.tick now).push ⟨now, cascade _, actual⟩) account
        ((state.closedBy id record (some actual) now).parts _)
      rw [← record.accounts_eq, state.parts_closedBy]
      split
      next counted =>
        have fits := clean record found account counted
        exact ((balanced account).spend notAfter counted fits).congr rfl rfl rfl
      next elsewhere => exact ((balanced account).tick notAfter).spend_elsewhere elsewhere

theorem Balanced.reserve (balanced : Balanced (state, history)) (notAfter : history.NotAfter now)
    (scope : ResourceScope) (estimate : ResourceEstimate) (id : ResourceReservationId) :
    Balanced ((reserveWithOutcomeInState state scope estimate id now).2, history.tick now) := by
  intro account
  rcases state.reserve_cases scope estimate id now with
    ⟨_, refused⟩ | ⟨_, _, denied⟩ | ⟨_, _, _, _, granted⟩
  · rw [refused]
    exact (balanced account).tick notAfter
  · rw [denied]
    rw [state.parts_rolledOver (cascade_nodup scope)]
    split
    · exact (balanced account).advanced notAfter
    · exact (balanced account).tick notAfter
  · rw [granted]
    rw [state.parts_granted]
    split
    · exact ((balanced account).advanced notAfter).congr rfl rfl rfl
    · exact (balanced account).tick notAfter

theorem Balanced.step (balanced : Balanced (state, history)) {call : ResourceOp × DateTime}
    (notAfter : history.NotAfter call.2) (clean : WindowsClean scale state history call) :
    Balanced (state.next call, history.record state call) := by
  obtain ⟨op, _⟩ := call
  cases op with
  | setLimit =>
    intro other
    rw [next, apply, state.parts_setLimit]
    split
    next same =>
      subst same
      exact (balanced other).setLimit notAfter clean
    · exact (balanced other).tick notAfter
  | reserve scope estimate id => exact balanced.reserve notAfter scope estimate id
  | reconcile id actual => exact balanced.closed notAfter id (some actual) clean
  | release id => exact balanced.closed notAfter id none clean

theorem Balanced.countsWindows {ledger : ResourceState × History} (balanced : Balanced ledger) :
    CountsWindows ledger.1 ledger.2 := by
  intro account limits anchor limited periodic anchored dimension
  obtain ⟨opened, window⟩ := balanced account limits limited periodic
  have sameEnd : anchor = (periodBounds limits.period opened).2 :=
    Option.some.inj (anchored.symm.trans window.anchor)
  rw [sameEnd, windowStart_end periodic window.regular]
  exact window.usage dimension

/-- In every run with a clock that does not run backwards whose new limits open clean windows
and whose usage fits, the ledgers count exactly what was spent in the current windows. -/
theorem ledgers.count_current_windows (scale : Nat) {ledger : ResourceState × History}
    (reached : ledgers.Reachable (fun before call => before.2.NotAfter call.2 ∧
      WindowsClean scale before.1 before.2 call) ledger) :
    CountsWindows ledger.1 ledger.2 := by
  have balanced : Balanced ledger := by
    refine reached.invariant Balanced ?_ ?_
    · rintro ⟨state, history⟩ ⟨initial, _⟩ _ _ limited
      obtain rfl : state = .empty := initial
      cases limited
    · rintro before call ⟨_, _⟩ invariant ⟨notAfter, clean⟩ ⟨moved, recorded⟩
      obtain rfl : _ = before.1.next call := moved
      obtain rfl : _ = before.2.record before.1 _ := recorded
      exact invariant.step notAfter clean
  exact balanced.countsWindows

end

/-! ## A clean run and one with a limit that is set again -/

namespace ledgers

local instance : Platform := .exactUtc

theorem regular_exactUtc (period : BudgetPeriod) : period.Regular := by
  cases period with
  | calendar =>
    refine ⟨fun date => date * days 1, fun _ => rfl, fun date now => ?_⟩
    exact (Int.le_ediv_iff_mul_le (by decide)).symm
  | _ => trivial

local instance (period : BudgetPeriod) : Decidable period.Regular :=
  .isTrue (regular_exactUtc period)

local instance (history : History) (account : ResourceAccount) (start : DateTime) :
    Decidable (history.UnspentSince account start) :=
  inferInstanceAs (Decidable (∀ spend ∈ history.spends, _))

local instance (history : History) (now : DateTime) : Decidable (history.NotAfter now) :=
  inferInstanceAs (Decidable (∀ last ∈ history.clock, _))

local instance (scale : Nat) (state : ResourceState) (history : History)
    (call : ResourceOp × DateTime) : Decidable (WindowsClean scale state history call) := by
  unfold WindowsClean CleanLimit UsageFits
  split <;> infer_instance

open governor (askTokens sampleTenant)

def dailyLimit : ResourceOp :=
  .setLimit sampleTenant { maxInputTokens := some 10, period := .rolling24h }

def spendTokens (id : Nat) (tokens : U64) : ResourceOp := .reconcile ⟨id⟩ { inputTokens := tokens }

def after (calls : List (ResourceOp × DateTime)) : ResourceState × History :=
  calls.foldl (fun ledger call => (ledger.1.next call, ledger.2.record ledger.1 call))
    (.empty, .start)

/-- Three tokens on the first day, and four on the second, once its window is open. -/
def cleanCalls : List (ResourceOp × DateTime) :=
  [(dailyLimit, 0), (askTokens 1 3, hours 1), (spendTokens 1 3, hours 2),
    (askTokens 2 4, hours 30), (dailyLimit, hours 31), (spendTokens 2 4, hours 32)]

/-- Three tokens on the first day, and the same limit set again on the second. -/
def carriedCalls : List (ResourceOp × DateTime) :=
  [(dailyLimit, 0), (askTokens 1 3, hours 1), (spendTokens 1 3, hours 2), (dailyLimit, hours 30)]

theorem reachable_after {guard : ResourceState × History → ResourceOp × DateTime → Prop}
    {calls : List (ResourceOp × DateTime)} (allowed : System.AllowedAlong guard
      (fun ledger call => (ledger.1.next call, ledger.2.record ledger.1 call))
      (.empty, .start) calls) : ledgers.Reachable guard (after calls) := by
  have start : ledgers.Reachable guard (.empty, .start) := .start ⟨rfl, rfl⟩
  exact start.followHistory calls allowed

theorem second_day_counts_four :
    ((after cleanCalls).1.usageFor governor.sampleTenant).amount .inputTokens = 4 ∧
      CountsWindows (after cleanCalls).1 (after cleanCalls).2 :=
  ⟨by decide +kernel, count_current_windows 2 (reachable_after (by decide +kernel))⟩

/-- The limit that is set again carries the three tokens of the ended window into the window
that it opens, in which nothing was spent. -/
theorem ended_window_is_carried :
    ledgers.Reachable (fun before call => before.2.NotAfter call.2) (after carriedCalls) ∧
      ((after carriedCalls).1.usageFor governor.sampleTenant).amount .inputTokens = 3 ∧
      (after carriedCalls).2.spentSince governor.sampleTenant
        (rolling24h.windowStart (hours 54)) .inputTokens = 0 ∧
      ¬ CountsWindows (after carriedCalls).1 (after carriedCalls).2 := by
  have period : ((after carriedCalls).1.limits.get sampleTenant).map
      period = some .rolling24h := by decide +kernel
  have anchored : (after carriedCalls).1.periodAnchors.get sampleTenant =
      some (hours 54) := by decide +kernel
  have carried : ((after carriedCalls).1.usageFor sampleTenant).amount .inputTokens =
      3 := by decide +kernel
  have unspent : (after carriedCalls).2.spentSince sampleTenant
      (rolling24h.windowStart (hours 54)) .inputTokens = 0 := by
    decide +kernel
  refine ⟨reachable_after (by decide +kernel), carried, unspent, fun counts => ?_⟩
  obtain ⟨limits, limited, rolling⟩ := Option.map_eq_some_iff.mp period
  have counted := counts sampleTenant limits _ limited
    (rolling ▸ nofun) anchored .inputTokens
  rw [carried, rolling, unspent] at counted
  cases counted

end ledgers

end Ironclaw.Resources
