import Ironclaw.Turns.Locks

/-!
# Spawn-tree capacity

The descendants a tree has reserved and the children it has released, counted along
a run, against the count the store keeps.  The store drops the state of a tree whose
count reaches zero, and the memory of released children with it; the counts agree as
long as no release relies on what was dropped.
-/

namespace Ironclaw.Turns

open Lib Ledger Turns.Inner Table TreeReservationState StoreOp

structure TreeTally where
  reserved : Nat
  released : Finset TurnRunId
  deriving DecidableEq

namespace Inner

/-- `descendant_count` of a tree; a tree without state has none. -/
def descendantCount (inner : Inner) (key : SpawnTreeReservationKey) : Nat :=
  (inner.treeState key).count

/-- The last section of a child submission accepts a new run. -/
def acceptsChild (inner : Inner) (context : CallContext) (submitKey : SubmitIdempotencyKey)
    (request : SubmitChildRunRequest) : Bool :=
  (inner.submitIdempotency.get submitKey).isNone &&
    match (inner.submitChildCommit context submitKey request).1 with
    | some (.ok _) => true
    | _ => false

/-- The child would be attached to the tree. -/
def childOnTree (inner : Inner) (key : SpawnTreeReservationKey)
    (request : SubmitChildRunRequest) : Bool :=
  match inner.childParent request with
  | .ok parent => key = .new request.childScope parent.spawnTreeRoot
  | .error _ => false

end Inner

/-- A successful reservation counts its descendants, an accepted child counts as one,
a successful release counts its child, once. -/
def TreeTally.after (key : SpawnTreeReservationKey) (inner : Inner) (op : StoreOp)
    (tally : TreeTally) : TreeTally :=
  match op with
  | .reserveTreeDescendants scope rootRunId delta cap =>
    if key = .new scope rootRunId ∧
        (inner.reserveTreeDescendants scope rootRunId delta cap).1.isOk then
      { tally with reserved := tally.reserved + delta }
    else tally
  | .submitChildCommit context submitKey request =>
    if inner.childOnTree key request && inner.acceptsChild context submitKey request then
      { tally with reserved := tally.reserved + 1 }
    else tally
  | .releaseTreeDescendants scope rootRunId delta child =>
    if key = .new scope rootRunId ∧
        (inner.releaseTreeDescendants scope rootRunId delta child).1.isOk then
      { tally with released := insert child tally.released }
    else tally
  | _ => tally

def talliedStore (env : StoreEnv) (key : SpawnTreeReservationKey) :
    System (Inner × TreeTally) StoreOp :=
  (turnStore env).withHistory ⟨0, ∅⟩ (TreeTally.after key)

/-- When a release on the tree agrees with its history: a tree without state only sees
children again that it has released; with state, a release that passes the dedup marker
and the count check gives back one descendant for a child not yet released, or none for
one that was. -/
def StoreOp.ReleaseFits (key : SpawnTreeReservationKey) (state : Inner × TreeTally)
    (op : StoreOp) : Prop :=
  match op with
  | .releaseTreeDescendants scope rootRunId delta child =>
    key = .new scope rootRunId → (∃ root, state.1.treeRoot scope rootRunId = .ok root) →
      match state.1.treeReservations.get key with
      | none => child ∈ state.2.released
      | some tree =>
        child ∈ tree.releasedChildren ∨ tree.count < delta ∨
          delta = if child ∈ state.2.released then 0 else 1
  | _ => True

/-! ## What each operation does to the counts -/

variable {delta : Nat} {inner after : Inner} {key : SpawnTreeReservationKey}
variable {tree : TreeReservationState}

namespace Inner

theorem spec_of_nextTreeCount {count cap next : Nat}
    (granted : nextTreeCount count delta cap = .ok next) : next = count + delta ∧ next ≤ cap := by
  unfold nextTreeCount checkedAdd at granted
  split at granted
  · cases granted
  rename_i summed
  split at summed
  · rw [← Option.some.inj summed] at granted
    split at granted
    · cases granted
    next fits =>
      cases granted
      exact ⟨rfl, Nat.not_lt.mp fits⟩
  · cases summed

theorem spec_of_treeRoot {scope : TurnScope} {rootRunId : TurnRunId}
    {root : RunRecord} (passed : inner.treeRoot scope rootRunId = .ok root) :
    inner.records.get rootRunId = some root := by
  revert passed
  fun_cases inner.treeRoot scope rootRunId <;> rintro ⟨⟩
  next found _ _ => exact found

variable {before : Inner} (scope : TurnScope) (rootRunId : TurnRunId)

theorem reserveTreeDescendants_cases (delta cap : Nat) (agreement : Agreement inner.ledger) :
    (∃ error, inner.reserveTreeDescendants scope rootRunId delta cap = (.error error, inner)) ∨
      ∃ reservation next, 0 < delta ∧
        nextTreeCount (inner.descendantCount (.new scope rootRunId)) delta cap = .ok next ∧
        inner.reserveTreeDescendants scope rootRunId delta cap =
          (.ok reservation, inner.insertTreeState (.new scope rootRunId)
            { inner.treeState (.new scope rootRunId) with count := next }) := by
  unfold reserveTreeDescendants
  split
  · exact .inl ⟨_, rfl⟩
  rename_i positive
  split
  · exact .inl ⟨_, rfl⟩
  rename_i root passed
  have keyed : root.runId = rootRunId := agreement.keyed (spec_of_treeRoot passed)
  simp only [keyed]
  split
  · exact .inl ⟨_, rfl⟩
  next next granted => exact .inr ⟨_, next, Nat.pos_of_ne_zero positive, granted, rfl⟩

/-- A tree after a release that went through. -/
def releasedTrees (inner : Inner) (key : SpawnTreeReservationKey) (tree : TreeReservationState)
    (delta : Nat) (child : TurnRunId) : Table SpawnTreeReservationKey TreeReservationState :=
  if tree.count - delta = 0 then inner.treeReservations.remove key
  else inner.treeReservations.insert key
    ⟨tree.count - delta, insert child tree.releasedChildren⟩

theorem releaseTreeDescendants_cases (delta : Nat) (child : TurnRunId)
    (agreement : Agreement inner.ledger) :
    (∃ error, inner.releaseTreeDescendants scope rootRunId delta child = (.error error, inner)) ∨
      (∃ root, inner.treeRoot scope rootRunId = .ok root) ∧
        ((inner.releaseTreeDescendants scope rootRunId delta child = (.ok (), inner) ∧
          ∀ tree, inner.treeReservations.get (.new scope rootRunId) = some tree →
            child ∈ tree.releasedChildren) ∨
        ∃ tree, inner.treeReservations.get (.new scope rootRunId) = some tree ∧
          child ∉ tree.releasedChildren ∧ delta ≤ tree.count ∧
          (inner.releaseTreeDescendants scope rootRunId delta child).1 = .ok () ∧
          (inner.releaseTreeDescendants scope rootRunId delta child).2.treeReservations =
            inner.releasedTrees (.new scope rootRunId) tree delta child) := by
  unfold releaseTreeDescendants releasedTrees
  split
  · exact .inl ⟨_, rfl⟩
  rename_i root passed
  have keyed : root.runId = rootRunId := agreement.keyed (spec_of_treeRoot passed)
  simp only [keyed]
  cases found : inner.treeReservations.get (.new scope rootRunId) with
  | none => exact .inr ⟨⟨root, passed⟩, .inl ⟨rfl, nofun⟩⟩
  | some tree =>
    dsimp only
    split
    next marked =>
      refine .inr ⟨⟨root, passed⟩, .inl ⟨rfl, fun other present => ?_⟩⟩
      rwa [← Option.some.inj present]
    next unmarked =>
      split
      · -- The refused release takes its own marker back.
        have restored : inner.insertTreeState (.new scope rootRunId) tree = inner := by
          unfold insertTreeState
          rw [insert_of_get found]
        rw [Finset.erase_insert unmarked, restored]
        exact .inl ⟨_, rfl⟩
      · rename_i enough
        refine .inr ⟨⟨root, passed⟩, .inr ⟨tree, rfl, unmarked, Nat.not_lt.mp enough, ?_⟩⟩
        split
        · exact ⟨rfl, (retireEmptyRoot_quiet _ _).trees⟩
        · exact ⟨rfl, rfl⟩

def TreesPositive (inner : Inner) : Prop :=
  ∀ key tree, inner.treeReservations.get key = some tree → 0 < tree.count

theorem TreesPositive.insert (positive : before.TreesPositive) (counted : 0 < tree.count)
    (trees : after.treeReservations = before.treeReservations.insert key tree) :
    after.TreesPositive := by
  intro other candidate found
  rw [trees, get_insert] at found
  split at found
  · rwa [← Option.some.inj found]
  · exact positive other candidate found

theorem TreesPositive.of_same (positive : before.TreesPositive)
    (trees : after.treeReservations = before.treeReservations) : after.TreesPositive := by
  unfold TreesPositive
  rw [trees]
  exact positive

theorem rollbackTreeReservation_trees (positive : inner.TreesPositive)
    (key : SpawnTreeReservationKey) (count : Nat) :
    ((inner.insertTreeState key { inner.treeState key with count }
      ).rollbackTreeReservation key (inner.treeState key)).treeReservations =
        inner.treeReservations := by
  apply ext
  intro other
  unfold rollbackTreeReservation
  cases found : inner.treeReservations.get key with
  | none =>
    have empty : inner.treeState key = {} := by simp [treeState, found]
    rw [if_pos (by rw [empty])]
    change ((inner.treeReservations.insert key _).remove key).get other = _
    by_cases same : other = key
    · rw [same, get_remove_self, found]
    · rw [get_remove_of_ne _ same, get_insert_of_ne _ _ same]
  | some tree =>
    have current : inner.treeState key = tree := by simp [treeState, found]
    rw [if_neg (by rw [current]; exact Nat.ne_of_gt (positive key tree found))]
    change ((inner.treeReservations.insert key _).insert key _).get other = _
    by_cases same : other = key
    · rw [same, get_insert_self, found, current]
    · rw [get_insert_of_ne _ _ same, get_insert_of_ne _ _ same]

theorem pruneReleasedChild_cases (rootRunId childRunId : TurnRunId) (inner : Inner) :
    (inner.pruneReleasedChild scope rootRunId childRunId).2.treeReservations =
        inner.treeReservations ∨
      ∃ key tree, inner.treeReservations.get key = some tree ∧
        (inner.pruneReleasedChild scope rootRunId childRunId).2.treeReservations =
          inner.treeReservations.insert key
            ⟨tree.count, tree.releasedChildren.erase childRunId⟩ := by
  fun_cases inner.pruneReleasedChild scope rootRunId childRunId <;> try exact .inl rfl
  next tree found => exact .inr ⟨_, tree, found, rfl⟩

theorem submitChildCommit_cases (context : CallContext) (submitKey : SubmitIdempotencyKey)
    (request : SubmitChildRunRequest) (positive : inner.TreesPositive) :
    (inner.acceptsChild context submitKey request = false ∧
      (inner.submitChildCommit context submitKey request).2.treeReservations =
        inner.treeReservations) ∨
      inner.acceptsChild context submitKey request = true ∧
        (∃ response, (inner.submitChildCommit context submitKey request).1 = some (.ok response)) ∧
        ∃ plan, inner.childCommitChecks context request = .ok plan ∧
          (inner.submitChildCommit context submitKey request).2.treeReservations =
            inner.treeReservations.insert plan.reservationKey
              { inner.treeState plan.reservationKey with count := plan.nextCount } := by
  have refused : ∀ (state : Inner) (error : TurnError),
      (state.refuseSubmit submitKey error request.receivedAt).2.treeReservations =
        state.treeReservations :=
    fun state error => (refuseSubmit_rests state submitKey error request.receivedAt).trees
  unfold acceptsChild submitChildCommit unlessDecided
  cases decided : inner.submitIdempotency.get submitKey with
  | some => exact .inl ⟨rfl, rfl⟩
  | none =>
    cases context.profileResolution with
    | error error => exact .inl ⟨by simp [refuseSubmit_fst], refused _ _⟩
    | ok =>
      cases checked : inner.childCommitChecks context request with
      | error error => exact .inl ⟨by simp [refuseSubmit_fst], refused _ _⟩
      | ok plan =>
        dsimp only
        generalize admitted : reserveAdmission _ _ _ _ _ _ = verdict
        cases verdict with
        | error =>
          refine .inl ⟨by simp [refuseSubmit_fst], ?_⟩
          rw [refused, rollbackTreeReservation_trees positive]
        | ok =>
          refine .inr ⟨rfl, ⟨_, rfl⟩, plan, rfl, ?_⟩
          rw [(acceptSubmit_rests _ _ _ _ _ _ _).trees, (reserveAdmission_quiet admitted).trees]
          rfl

end Inner

theorem StoreOp.apply_treesPositive (env : StoreEnv)
    (agreement : Agreement inner.ledger) (positive : inner.TreesPositive) (op : StoreOp) :
    (op.apply env inner).TreesPositive := by
  by_cases writes : op.WritesTrees
  · cases op with
    | submitChildCommit context submitKey request =>
      rcases submitChildCommit_cases context submitKey request positive with
        ⟨_, same⟩ | ⟨_, _, _, checked, counted⟩
      · exact positive.of_same same
      · obtain ⟨_, _, _, _, granted⟩ := spec_of_childCommitChecks checked
        have next := (spec_of_nextTreeCount granted).1
        exact positive.insert (by rw [next]; exact Nat.succ_pos _) counted
    | reserveTreeDescendants scope rootRunId delta cap =>
      change (inner.reserveTreeDescendants scope rootRunId delta cap).2.TreesPositive
      rcases reserveTreeDescendants_cases scope rootRunId delta cap agreement with
        ⟨_, refused⟩ | ⟨_, next, nonzero, granted, reserved⟩
      · rwa [refused]
      · rw [reserved]
        have sum := (spec_of_nextTreeCount granted).1
        exact positive.insert (by rw [sum]; exact Nat.add_pos_right _ nonzero) rfl
    | releaseTreeDescendants scope rootRunId delta child =>
      change (inner.releaseTreeDescendants scope rootRunId delta child).2.TreesPositive
      rcases releaseTreeDescendants_cases scope rootRunId delta child agreement with
        ⟨_, refused⟩ | ⟨_, ⟨idle, _⟩ | ⟨tree, _, _, _, _, taken⟩⟩
      · rwa [refused]
      · rwa [idle]
      · unfold releasedTrees at taken
        split at taken
        · intro other candidate found
          rw [taken] at found
          exact positive other candidate (get_of_remove found)
        next left => exact positive.insert (Nat.pos_of_ne_zero left) taken
    | pruneReleasedChild scope rootRunId childRunId =>
      rcases pruneReleasedChild_cases scope rootRunId childRunId inner with
        same | ⟨other, tree, found, pruned⟩
      · exact positive.of_same same
      · have counted : 0 < (mk tree.count
          (tree.releasedChildren.erase childRunId)).count := positive other tree found
        exact positive.insert counted pruned
    | _ => cases writes
  · exact positive.of_same (op.apply_rests env inner writes).trees

theorem turnStore.treesPositive {env : StoreEnv}
    (reached : (turnStore env).Reachable System.anyStep inner) : inner.TreesPositive := by
  induction reached with
  | start fresh =>
    obtain ⟨_, rfl⟩ := fresh
    rintro key _ ⟨⟩
  | next reached _ step positive =>
    obtain ⟨_, rfl⟩ := step
    exact apply_treesPositive env (turnStore.agreement reached) positive _

/-! ## The tally of one tree -/

/-- The store's state of a tree agrees with its history. -/
structure TreeTally.Matches (key : SpawnTreeReservationKey) (inner : Inner)
    (tally : TreeTally) : Prop where
  balance : inner.descendantCount key + tally.released.card = tally.reserved
  markers : (inner.treeState key).releasedChildren ⊆ tally.released

namespace Inner

variable {before after : Inner} (key : SpawnTreeReservationKey) {other : SpawnTreeReservationKey}

theorem treeState_of_same (trees : after.treeReservations = before.treeReservations) :
    after.treeState key = before.treeState key := by
  unfold treeState
  rw [trees]

theorem treeState_of_insert
    (trees : after.treeReservations = before.treeReservations.insert other tree) :
    after.treeState key = if key = other then tree else before.treeState key := by
  unfold treeState
  rw [trees, get_insert]
  split <;> rfl

theorem treeState_of_release {child : TurnRunId}
    (taken : after.treeReservations = before.releasedTrees other tree delta child) :
    after.treeState key = if key = other then
      if tree.count - delta = 0 then {}
      else ⟨tree.count - delta, insert child tree.releasedChildren⟩
    else before.treeState key := by
  unfold treeState
  rw [taken, releasedTrees]
  split
  · rw [get_remove]
    split <;> rfl
  · rw [get_insert]
    split <;> rfl

variable {key}

theorem treeState_of_get
    (found : before.treeReservations.get key = some tree) : before.treeState key = tree := by
  unfold treeState
  rw [found]
  rfl

end Inner

namespace TreeTally

variable {key : SpawnTreeReservationKey} {before after : Inner} {tally : TreeTally}

theorem matches_iff (state : after.treeState key = tree) : tally.Matches key after ↔
    tree.count + tally.released.card = tally.reserved ∧ tree.releasedChildren ⊆ tally.released := by
  subst state
  exact ⟨fun agrees => ⟨agrees.balance, agrees.markers⟩, fun ⟨balance, markers⟩ =>
    ⟨balance, markers⟩⟩

theorem Matches.of_treeState (agrees : tally.Matches key before)
    (same : after.treeState key = before.treeState key) : tally.Matches key after :=
  (matches_iff same).mpr ((matches_iff rfl).mp agrees)

theorem Matches.reserve (agrees : tally.Matches key before) {other : SpawnTreeReservationKey}
    {next : Nat} (sum : next = before.descendantCount other + delta)
    (counted : after.treeReservations = before.treeReservations.insert other
      { before.treeState other with count := next }) :
    Matches key after
      (if key = other then { tally with reserved := tally.reserved + delta } else tally) := by
  have state := treeState_of_insert key counted
  split at state
  next same =>
    subst same sum
    rw [if_pos rfl]
    refine (matches_iff state).mpr ⟨?_, agrees.markers⟩
    have balance := agrees.balance
    dsimp only
    omega
  next elsewhere =>
    rw [if_neg elsewhere]
    exact agrees.of_treeState state

variable {child : TurnRunId}

theorem Matches.replay (agrees : tally.Matches key before)
    (known : child ∈ tally.released) (same : after.treeState key = before.treeState key) :
    Matches key after { tally with released := insert child tally.released } := by
  rw [Finset.insert_eq_of_mem known]
  exact agrees.of_treeState same

/-- A release that takes from the tree what is outstanding for its child. -/
theorem Matches.release (agrees : tally.Matches key before)
    (found : before.treeReservations.get key = some tree) (enough : delta ≤ tree.count)
    (outstanding : delta = if child ∈ tally.released then 0 else 1)
    (taken : after.treeReservations = before.releasedTrees key tree delta child) :
    Matches key after { tally with released := insert child tally.released } := by
  obtain ⟨balance, markers⟩ := (matches_iff (treeState_of_get found)).mp agrees
  have card : (insert child tally.released).card = tally.released.card + delta := by
    rw [outstanding]
    split
    next known => rw [Finset.insert_eq_of_mem known, Nat.add_zero]
    next unknown => rw [Finset.card_insert_of_notMem unknown]
  have state := treeState_of_release key taken
  rw [if_pos rfl] at state
  split at state
  · refine (matches_iff state).mpr ⟨?_, Finset.empty_subset _⟩
    dsimp only
    omega
  · refine (matches_iff state).mpr ⟨?_, Finset.insert_subset_insert _ markers⟩
    dsimp only
    omega

theorem Matches.forget (agrees : tally.Matches key before) {other : SpawnTreeReservationKey}
    (found : before.treeReservations.get other = some tree)
    (pruned : after.treeReservations = before.treeReservations.insert other
      ⟨tree.count, tree.releasedChildren.erase child⟩) : tally.Matches key after := by
  have state := treeState_of_insert key pruned
  split at state
  next same =>
    rw [← same] at found
    obtain ⟨balance, markers⟩ := (matches_iff (treeState_of_get found)).mp agrees
    exact (matches_iff state).mpr ⟨balance, (Finset.erase_subset _ _).trans markers⟩
  · exact agrees.of_treeState state

theorem Matches.step (env : StoreEnv) (agreement : Agreement inner.ledger)
    (positive : inner.TreesPositive) (agrees : tally.Matches key inner) (op : StoreOp)
    (fits : op.ReleaseFits key (inner, tally)) :
    (tally.after key inner op).Matches key (op.apply env inner) := by
  by_cases writes : op.WritesTrees
  · cases op with
    | submitChildCommit context submitKey request =>
      simp only [TreeTally.after]
      rcases submitChildCommit_cases context submitKey request positive with
        ⟨refused, same⟩ | ⟨accepted, _, plan, checked, counted⟩
      · simp only [refused, Bool.and_false, Bool.false_eq_true, if_false]
        exact agrees.of_treeState (treeState_of_same key same)
      · obtain ⟨parent, _, _, planned, granted⟩ := spec_of_childCommitChecks checked
        simp only [accepted, childOnTree, parent, Bool.and_true, decide_eq_true_eq, ← planned]
        exact agrees.reserve (spec_of_nextTreeCount granted).1 counted
    | reserveTreeDescendants scope rootRunId delta cap =>
      simp only [TreeTally.after, apply]
      rcases reserveTreeDescendants_cases scope rootRunId delta cap agreement with
        ⟨_, refused⟩ | ⟨_, next, _, granted, reserved⟩
      · rw [refused, if_neg (by rintro ⟨_, ⟨⟩⟩)]
        exact agrees
      · have agreed := agrees.reserve (spec_of_nextTreeCount granted).1
          (congrArg (fun result => result.2.treeReservations) reserved)
        simpa [reserved, Except.isOk, Except.toBool] using agreed
    | releaseTreeDescendants scope rootRunId delta child =>
      simp only [TreeTally.after, apply]
      rcases releaseTreeDescendants_cases scope rootRunId delta child agreement with
        ⟨_, refused⟩ | ⟨rooted, ⟨idle, marked⟩ | ⟨tree, found, unmarked, enough, done, taken⟩⟩
      · rw [refused, if_neg (by rintro ⟨_, ⟨⟩⟩)]
        exact agrees
      · rw [idle]
        split
        next counted =>
          refine agrees.replay ?_ rfl
          have allowed := fits counted.1 rooted
          rw [← counted.1] at marked
          cases found : inner.treeReservations.get key with
          | none => simpa [found] using allowed
          | some tree =>
            apply agrees.markers
            rw [treeState_of_get found]
            exact marked tree found
        · exact agrees
      · rw [done]
        split
        next counted =>
          rw [← counted.1] at found taken
          have allowed := fits counted.1 rooted
          simp only [found, unmarked, false_or] at allowed
          exact agrees.release found enough (allowed.resolve_left (Nat.not_lt.mpr enough)) taken
        next elsewhere =>
          have elsewhere : key ≠ .new scope rootRunId := fun same => elsewhere ⟨same, rfl⟩
          have state := treeState_of_release key taken
          rw [if_neg elsewhere] at state
          exact agrees.of_treeState state
    | pruneReleasedChild scope rootRunId childRunId =>
      rcases pruneReleasedChild_cases scope rootRunId childRunId inner with
        same | ⟨other, tree, found, pruned⟩
      · exact agrees.of_treeState (treeState_of_same key same)
      · exact agrees.forget found pruned
    | _ => cases writes
  · have same : tally.after key inner op = tally := by
      cases op <;> first | rfl | exact absurd trivial writes
    rw [same]
    exact agrees.of_treeState
      (treeState_of_same key (op.apply_rests env inner writes).trees)

end TreeTally

theorem talliedStore.agrees {env : StoreEnv} {state : Inner × TreeTally}
    (reached : (talliedStore env key).Reachable (StoreOp.ReleaseFits key) state) :
    state.2.Matches key state.1 := by
  induction reached with
  | start fresh =>
    obtain ⟨⟨_, fresh⟩, zero⟩ := fresh
    rw [fresh, zero]
    exact ⟨rfl, Finset.empty_subset _⟩
  | next reached fits step agrees =>
    obtain ⟨⟨_, moved⟩, counted⟩ := step
    rw [moved, counted]
    exact agrees.step env (turnStore.agreement reached.forget)
      (turnStore.treesPositive reached.forget) _ fits

/-! ## Caps and failing calls -/

namespace Inner

theorem reserveTreeDescendants_le_cap (scope : TurnScope) (rootRunId : TurnRunId)
    (delta cap : Nat) (agreement : Agreement inner.ledger) {reservation : SpawnTreeReservation}
    (granted : (inner.reserveTreeDescendants scope rootRunId delta cap).1 = .ok reservation) :
    (inner.reserveTreeDescendants scope rootRunId delta cap).2.descendantCount
      (.new scope rootRunId) ≤ cap := by
  rcases reserveTreeDescendants_cases scope rootRunId delta cap agreement with
    ⟨_, refused⟩ | ⟨_, _, _, counted, reserved⟩
  · rw [refused] at granted
    cases granted
  · have written := congrArg (fun result => result.2.treeReservations) reserved
    unfold descendantCount
    rw [treeState_of_insert _ written, if_pos rfl]
    exact (spec_of_nextTreeCount counted).2

theorem submitChildCommit_le_cap (context : CallContext) (submitKey : SubmitIdempotencyKey)
    (request : SubmitChildRunRequest) (positive : inner.TreesPositive)
    (accepted : inner.acceptsChild context submitKey request = true)
    (onTree : inner.childOnTree key request = true) :
    (inner.submitChildCommit context submitKey request).2.descendantCount key ≤
      request.spawnTreeDescendantCap := by
  rcases submitChildCommit_cases context submitKey request positive with
    ⟨refused, _⟩ | ⟨_, _, plan, checked, counted⟩
  · rw [refused] at accepted
    cases accepted
  · obtain ⟨parent, _, _, planned, granted⟩ := spec_of_childCommitChecks checked
    have same : key = plan.reservationKey := by
      rw [planned]
      simpa [childOnTree, parent] using onTree
    unfold descendantCount
    rw [treeState_of_insert _ counted, if_pos same]
    exact (spec_of_nextTreeCount granted).2

variable {error : TurnError}

theorem submitChildTurn_failed (context : CallContext) (request : SubmitChildRunRequest)
    (positive : inner.TreesPositive)
    (failed : inner.submitChildTurn context request = (some (.error error), after)) :
    after.treeReservations = inner.treeReservations := by
  have claim := (claimSubmitIdempotency_quiet inner
    ⟨request.childScope, request.idempotencyKey⟩).trees
  unfold submitChildTurn at failed
  dsimp only at failed
  split at failed
  next claimed =>
    cases failed
    rwa [claimed] at claim
  · cases failed
  next first claimed =>
    rw [claimed] at claim
    have lineage := (submitChildLineage_ends first ⟨request.childScope, request.idempotencyKey⟩
      request).rests.trees
    split at failed
    · rename_i answer
      cases failed
      rw [answer] at lineage
      exact lineage.trans claim
    · rename_i second answer
      rw [answer] at lineage
      have admission := (submitAdmission_ends second ⟨request.childScope, request.idempotencyKey⟩
        context request.receivedAt).rests.trees
      split at failed
      · rename_i verdict
        cases failed
        rw [verdict] at admission
        exact admission.trans (lineage.trans claim)
      · rename_i third verdict
        rw [verdict] at admission
        have same := admission.trans (lineage.trans claim)
        rcases submitChildCommit_cases context ⟨request.childScope, request.idempotencyKey⟩
          request (positive.of_same same) with ⟨_, kept⟩ | ⟨_, ⟨_, accepted⟩, _⟩
        · rw [failed] at kept
          exact kept.trans same
        · rw [failed] at accepted
          cases accepted

end Inner

/-! ## Whole runs -/

/-- In every run a granted reservation stays within its cap and a failing call changes no
count; along a run whose releases fit the history of the tree, the count of the tree is what
was reserved less the children released. -/
theorem tree_count_matches_history (env : StoreEnv) (key : SpawnTreeReservationKey)
    {inner : Inner} {tally : TreeTally}
    (reached : (talliedStore env key).Reachable System.anyStep (inner, tally)) :
    ((talliedStore env key).Reachable (StoreOp.ReleaseFits key) (inner, tally) →
        inner.descendantCount key + tally.released.card = tally.reserved) ∧
      (∀ scope rootRunId delta cap reservation,
        (inner.reserveTreeDescendants scope rootRunId delta cap).1 = .ok reservation →
        (inner.reserveTreeDescendants scope rootRunId delta cap).2.descendantCount
          (.new scope rootRunId) ≤ cap) ∧
      (∀ context submitKey request tree, inner.acceptsChild context submitKey request = true →
        inner.childOnTree tree request = true →
        (inner.submitChildCommit context submitKey request).2.descendantCount tree ≤
          request.spawnTreeDescendantCap) ∧
      (∀ scope rootRunId delta cap error tree,
        (inner.reserveTreeDescendants scope rootRunId delta cap).1 = .error error →
        (inner.reserveTreeDescendants scope rootRunId delta cap).2.descendantCount tree =
          inner.descendantCount tree) ∧
      (∀ scope rootRunId delta child error tree,
        (inner.releaseTreeDescendants scope rootRunId delta child).1 = .error error →
        (inner.releaseTreeDescendants scope rootRunId delta child).2.descendantCount tree =
          inner.descendantCount tree) ∧
      ∀ context request error after tree,
        inner.submitChildTurn context request = (some (.error error), after) →
        after.descendantCount tree = inner.descendantCount tree := by
  have agreement := turnStore.agreement reached.forget
  have positive := turnStore.treesPositive reached.forget
  refine ⟨fun fitting => (talliedStore.agrees fitting).balance, ?_, ?_, ?_, ?_, ?_⟩
  · exact fun _ _ _ _ _ => reserveTreeDescendants_le_cap _ _ _ _ agreement
  · exact fun _ _ _ _ => submitChildCommit_le_cap _ _ _ positive
  · intro scope rootRunId delta cap error tree failed
    rcases reserveTreeDescendants_cases scope rootRunId delta cap agreement with
      ⟨_, refused⟩ | ⟨_, _, _, _, reserved⟩
    · rw [refused]
    · rw [reserved] at failed
      cases failed
  · intro scope rootRunId delta child error tree failed
    rcases releaseTreeDescendants_cases scope rootRunId delta child agreement with
      ⟨_, refused⟩ | ⟨_, ⟨idle, _⟩ | ⟨_, _, _, _, done, _⟩⟩
    · rw [refused]
    · rw [idle]
    · rw [done] at failed
      cases failed
  · intro context request error after tree failed
    have same := submitChildTurn_failed context request positive failed
    exact congrArg count (treeState_of_same tree same)

/-! ## A replayed release -/

namespace talliedStore

def runSteps (env : StoreEnv) (key : SpawnTreeReservationKey) (state : Inner × TreeTally) :
    List StoreOp → Inner × TreeTally
  | [] => state
  | op :: rest => runSteps env key (op.apply env state.1, state.2.after key state.1 op) rest

theorem reachable_runSteps {env : StoreEnv}
    {guard : Inner × TreeTally → StoreOp → Prop} (ops : List StoreOp)
    {state : Inner × TreeTally} (reached : (talliedStore env key).Reachable guard state)
    (admissible : ∀ op ∈ ops, ∀ inner, op.Admissible inner)
    (allowed : ∀ op ∈ ops, ∀ state, guard state op) :
    (talliedStore env key).Reachable guard (runSteps env key state ops) := by
  induction ops generalizing state with
  | nil => exact reached
  | cons op _ ih =>
    refine ih ?_ (fun later listed => admissible later (List.mem_cons_of_mem _ listed))
      (fun later listed => allowed later (List.mem_cons_of_mem _ listed))
    exact .next reached (allowed op List.mem_cons_self state)
      ⟨⟨admissible op List.mem_cons_self _, rfl⟩, rfl⟩

open turnStore (firstSubmission sampleEnv sampleScope submissionOn)

def sampleTree : SpawnTreeReservationKey := .new (sampleScope .actorFallback) ⟨1⟩

def reserveSome (delta : Nat) : StoreOp :=
  .reserveTreeDescendants (sampleScope .actorFallback) ⟨1⟩ delta 5

def releaseChild : StoreOp := .releaseTreeDescendants
    (sampleScope .actorFallback) ⟨1⟩ 1 ⟨9⟩

def emptyState : Inner × TreeTally := (.withLimits .default, ⟨0, ∅⟩)

def reservedState : Inner × TreeTally :=
  runSteps sampleEnv sampleTree emptyState [firstSubmission, reserveSome 2]

def releasedState : Inner × TreeTally := runSteps sampleEnv sampleTree reservedState [releaseChild]

theorem count_after_one_release :
    releasedState.1.descendantCount sampleTree + releasedState.2.released.card =
        releasedState.2.reserved ∧
      releasedState.2 = ⟨2, {⟨9⟩}⟩ ∧ releasedState.1.descendantCount sampleTree = 1 := by
  have reserved : (talliedStore sampleEnv sampleTree).Reachable
      (StoreOp.ReleaseFits sampleTree) reservedState :=
    reachable_runSteps _ (.start ⟨⟨.default, rfl⟩, rfl⟩)
      (by simp [firstSubmission, submissionOn, reserveSome, StoreOp.Admissible])
      (by simp [firstSubmission, submissionOn, reserveSome, StoreOp.ReleaseFits])
  have released : (talliedStore sampleEnv sampleTree).Reachable
      (StoreOp.ReleaseFits sampleTree) releasedState := by
    have fits : releaseChild.ReleaseFits sampleTree reservedState :=
      fun _ _ => .inr (.inr rfl)
    exact .next reserved fits ⟨⟨trivial, rfl⟩, rfl⟩
  have facts := tree_count_matches_history sampleEnv sampleTree
    (released.weaken fun _ _ _ => trivial)
  exact ⟨facts.1 released, by decide, by decide⟩

/-- The tree empties, is used again, and the first release is replayed. -/
def replayedState : Inner × TreeTally :=
  runSteps sampleEnv sampleTree emptyState
    [firstSubmission, reserveSome 1, releaseChild, reserveSome 1, releaseChild]

/-- The replay takes the second reservation off: nothing is counted although two were
reserved and one child was released. -/
theorem replayed_release_decrements_twice :
    (talliedStore turnStore.sampleEnv sampleTree).Reachable System.anyStep replayedState ∧
      replayedState.2 = ⟨2, {⟨9⟩}⟩ ∧ replayedState.1.descendantCount sampleTree = 0 ∧
      replayedState.1.descendantCount sampleTree + replayedState.2.released.card ≠
        replayedState.2.reserved := by
  refine ⟨?_, by decide, by decide, by decide⟩
  exact reachable_runSteps _ (.start ⟨⟨.default, rfl⟩, rfl⟩)
    (by simp [firstSubmission, submissionOn, reserveSome, releaseChild, StoreOp.Admissible])
    (fun _ _ _ => trivial)

end talliedStore

end Ironclaw.Turns
