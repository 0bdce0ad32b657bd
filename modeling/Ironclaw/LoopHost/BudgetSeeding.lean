import Ironclaw.Resources.Steps

/-!
# Default budgets of the accountant

The accountant gives an account a default limit when the governor shows none.  It reads the
account in one governor call and writes the default in another, and others set limits in
between.
-/

namespace Ironclaw.LoopHost

open HostApi Lib Resources Function ResourceState System

section

variable [platform : Platform] {ι : Type} [DecidableEq ι]

/-- The governor, the accounts the accountant remembers, and the default that each caller has
found missing and is about to write. -/
structure Seeding (ι : Type) where
  governor : ResourceState
  seeded : List ResourceAccount
  installing : ι → Option (ResourceAccount × ResourceLimits)

/-- The next governor call of a caller of `install_if_unseeded`, or a limit that others set; the
governor may fail. -/
inductive SeedingLabel (ι : Type) where
  | seed (caller : ι) (account : ResourceAccount) (limits : ResourceLimits) (now : DateTime)
      (serves : Bool)
  | setLimit (account : ResourceAccount) (limits : ResourceLimits) (now : DateTime)
      (serves : Bool)

namespace Seeding

/-- `install_if_unseeded` up to the end of `account_snapshot`, and from there. -/
def installIfUnseeded (state : Seeding ι) (caller : ι) (account : ResourceAccount)
    (limits : ResourceLimits) (now : DateTime) : Seeding ι :=
  match state.installing caller with
  | none =>
    if account ∈ state.seeded then state
    else
      let governor := advancePeriodIfRolledOver state.governor account now
      match governor.limits.get account with
      | some _ => { state with governor, seeded := account :: state.seeded }
      | none => { state with
          governor, installing := update state.installing caller (some (account, limits)) }
  | some (account, limits) =>
    { governor := setLimitInState state.governor account limits now
      seeded := account :: state.seeded
      installing := update state.installing caller none }

def next (state : Seeding ι) : SeedingLabel ι → Seeding ι
  | .seed caller account limits now true => state.installIfUnseeded caller account limits now
  | .seed caller _ _ _ false =>
    { state with installing := update state.installing caller none }
  | .setLimit account limits now true =>
    { state with governor := setLimitInState state.governor account limits now }
  | .setLimit _ _ _ false => state

/-- The accounts whose limit others have set. -/
def choose (_ : Seeding ι) : SeedingLabel ι → List ResourceAccount → List ResourceAccount
  | .setLimit account _ _ true, chosen => account :: chosen
  | _, chosen => chosen

/-- Any number of callers begin on any state of the governor. -/
def runs : System (Seeding ι × List ResourceAccount) (SeedingLabel ι) :=
  (ofFunction (fun state => state.seeded = [] ∧ ∀ caller, state.installing caller = none)
    next).withHistory [] choose

variable (state : Seeding ι) (account : ResourceAccount)

def limitsOf : Option ResourceLimits := (state.governor.parts account).limits

def Settled : Prop := ∀ caller limits, state.installing caller ≠ some (account, limits)

/-- Others set a limit only while nobody is about to write a default for the account. -/
def Undisturbed : SeedingLabel ι → Prop
  | .setLimit account _ _ true => state.Settled account
  | _ => True

/-- A chosen limit is there, and nobody is about to write a default over it. -/
def Respects (chosen : List ResourceAccount) : Prop :=
  ∀ account ∈ chosen, (state.limitsOf account).isSome ∧ state.Settled account

variable {state account} {label : SeedingLabel ι}

theorem Settled.seed (settled : state.Settled account) (limited : (state.limitsOf account).isSome)
    (caller : ι) (target : ResourceAccount) (limits : ResourceLimits) (now : DateTime)
    (serves : Bool) :
    let after := state.next (.seed caller target limits now serves)
    after.limitsOf account = state.limitsOf account ∧ after.Settled account := by
  have cleared : ∀ other given,
      update state.installing caller none other ≠ some (account, given) := by
    intro other given
    rw [update_apply]
    split
    · exact (Option.some_ne_none _).symm
    · exact settled other given
  cases serves with
  | false => exact ⟨rfl, cleared⟩
  | true =>
    dsimp only [next]
    unfold installIfUnseeded
    split
    · split
      · exact ⟨rfl, settled⟩
      have kept : ((advancePeriodIfRolledOver state.governor target now).parts account).limits =
          state.limitsOf account := by
        rw [parts_advance]
        split
        · exact AccountParts.advance_limits _ _
        · rfl
      dsimp only
      split
      · exact ⟨kept, settled⟩
      next missing =>
        refine ⟨kept, fun other given pending => ?_⟩
        rcases eq_or_ne other caller with rfl | different
        · cases (update_self other _ state.installing).symm.trans pending
          rw [← kept] at limited
          cases missing.symm.trans (Option.isSome_iff_exists.mp limited).choose_spec
        · exact settled other given ((update_of_ne different _ _).symm.trans pending)
    next target given pending =>
      have different : account ≠ target := by
        rintro rfl
        exact settled caller given pending
      refine ⟨?_, cleared⟩
      rw [limitsOf, parts_setLimit, if_neg different]
      rfl

theorem Respects.step {chosen : List ResourceAccount} (respects : state.Respects chosen)
    (allowed : state.Undisturbed label) :
    (state.next label).Respects (state.choose label chosen) := by
  intro account listed
  cases label with
  | setLimit target limits now serves =>
    cases serves with
    | false => exact respects account listed
    | true =>
      constructor
      · rw [limitsOf, next, parts_setLimit]
        split
        · rfl
        next different => exact (respects account (List.mem_of_ne_of_mem different listed)).1
      · rcases List.mem_cons.mp listed with rfl | earlier
        · exact allowed
        · exact (respects account earlier).2
  | seed caller target limits now serves =>
    obtain ⟨limited, settled⟩ := respects account listed
    obtain ⟨same, still⟩ := settled.seed limited caller target limits now serves
    exact ⟨same.symm ▸ limited, still⟩

/-- In a run in which others set a limit only while nobody is about to write a default for the
account, no seeding changes a limit that others have set. -/
theorem keeps_chosen_limits {state : Seeding ι × List ResourceAccount}
    (reached : runs.Reachable (fun before => before.1.Undisturbed) state)
    (chosen : account ∈ state.2) (caller : ι) (target : ResourceAccount) (limits : ResourceLimits)
    (now : DateTime) (serves : Bool) :
    (state.1.next (.seed caller target limits now serves)).limitsOf account =
      state.1.limitsOf account := by
  have respects : state.1.Respects state.2 := by
    refine reached.invariant (fun state => state.1.Respects state.2) ?_ ?_
    · rintro ⟨_, _⟩ ⟨_, rfl⟩ _ ⟨⟩
    · rintro before label ⟨_, _⟩ respects allowed ⟨rfl, rfl⟩
      exact respects.step allowed
  obtain ⟨limited, settled⟩ := respects account chosen
  exact (settled.seed limited caller target limits now serves).1

end Seeding

end

/-! ## A default that is written over a choice -/

namespace Seeding

local instance : Platform := .exactUtc

def sampleAccount : ResourceAccount := .tenant ⟨"tenant"⟩

def seedFifty : SeedingLabel Unit := .seed () sampleAccount { maxInputTokens := some 50 } 0 true

def chooseTen : SeedingLabel Unit := .setLimit sampleAccount { maxInputTokens := some 10 } 0 true

def after (labels : List (SeedingLabel Unit)) : Seeding Unit × List ResourceAccount :=
  labels.foldl (fun state label => (state.1.next label, state.1.choose label state.2))
    (⟨.empty, [], fun _ => none⟩, [])

theorem choice_is_kept :
    sampleAccount ∈ (after [chooseTen]).2 ∧
      ((after [chooseTen]).1.next seedFifty).limitsOf sampleAccount =
        (after [chooseTen]).1.limitsOf sampleAccount := by
  refine ⟨by decide, keeps_chosen_limits ?_ (by decide) _ _ _ _ _⟩
  have free : (after []).1.Undisturbed chooseTen := fun _ _ pending => by cases pending
  exact .next (.start ⟨⟨rfl, fun _ => rfl⟩, rfl⟩) free ⟨rfl, rfl⟩

/-- The limit is set after the account was read, and the default is written over it. -/
theorem choice_is_overwritten :
    runs.Reachable anyStep (after [seedFifty, chooseTen]) ∧
      sampleAccount ∈ (after [seedFifty, chooseTen]).2 ∧
      ((after [seedFifty, chooseTen]).1.next seedFifty).limitsOf sampleAccount ≠
        (after [seedFifty, chooseTen]).1.limitsOf sampleAccount := by
  have start : runs.Reachable anyStep (after []) := .start ⟨⟨rfl, fun _ => rfl⟩, rfl⟩
  refine ⟨start.followHistory _ (allowedAlong_anyStep _ _ _), by decide, ?_⟩
  intro same
  exact absurd (congrArg (Option.map ResourceLimits.maxInputTokens) same) (by decide +kernel)

end Seeding

end Ironclaw.LoopHost
