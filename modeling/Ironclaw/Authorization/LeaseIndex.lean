import Mathlib.Data.Finset.Sort
import Ironclaw.Authorization.Lease
import Ironclaw.Lib.System
import Ironclaw.Lib.Table

/-!
# Issuing leases on a shared filesystem

An issued lease is a file and an entry in the index of its owner.  The index is read and
then written without a version, and the lock over both is held within one store instance.
-/

namespace Ironclaw.Authorization

open Lib Function
open List

/-- An `issue` call that holds its instance's lock on the owner, by what it does next. -/
inductive IssuePhase (κ : Type) where
  | idle
  | readIndex (path : κ) (lease : CapabilityLease)
  | writeIndex (path : κ) (lease : CapabilityLease) (paths : List κ)
  | writeLease (path : κ) (lease : CapabilityLease)

/-- The files of one owner and the call of each instance; `κ` are the paths in the order of
their text.  `issued` is what the calls have returned. -/
structure OwnerLeases (ι κ : Type) where
  index : Option (List κ)
  files : Table κ CapabilityLease
  calls : ι → IssuePhase κ
  issued : List (κ × CapabilityLease)

inductive IssueLabel (κ : Type) where
  | issue (path : κ) (lease : CapabilityLease)
  | advance
  | fail

variable {ι κ : Type} [DecidableEq ι] [LinearOrder κ]

/-- `index_lease_path` between its read and its write. -/
def indexLeasePath (path : κ) (index : Option (List κ)) : List κ :=
  let paths := index.getD []
  if path ∈ paths then paths else paths ++ [path]

/-- `write_lease_index` sorts the paths and drops repetitions. -/
def indexOf (paths : List κ) : List κ := paths.toFinset.sort (· ≤ ·)

namespace OwnerLeases

/-- One access of an instance to the owner's files, or a failure of its call. -/
def next (owner : OwnerLeases ι κ) (label : ι × IssueLabel κ) : OwnerLeases ι κ :=
  let goto := update owner.calls label.1
  match label.2, owner.calls label.1 with
  | .issue path lease, .idle => { owner with calls := goto (.readIndex path lease) }
  | .advance, .readIndex path lease =>
    { owner with calls := goto (.writeIndex path lease (indexLeasePath path owner.index)) }
  | .advance, .writeIndex path lease paths =>
    { owner with index := some (indexOf paths), calls := goto (.writeLease path lease) }
  | .advance, .writeLease path lease =>
    { owner with
      files := owner.files.insert path lease
      calls := goto .idle
      issued := (path, lease) :: owner.issued }
  | .fail, _ => { owner with calls := goto .idle }
  | _, _ => owner

/-- `list_lease_paths_from_index_or_scan`. -/
def leasePaths (owner : OwnerLeases ι κ) : List κ :=
  owner.index.getD (owner.files.keys.sort (· ≤ ·))

end OwnerLeases

open OwnerLeases

/-- `leases_for_scope` after it has listed the paths; `read` is what it then finds at each. -/
def leasesForScope (paths : List κ) (read : κ → Option CapabilityLease) : List CapabilityLease :=
  (paths.filterMap read).mergeSort fun first second => first.grantId.uuid ≤ second.grantId.uuid

/-- Store instances that issue leases to one owner, who has none at first. -/
def leaseIssues (ι κ : Type) [DecidableEq ι] [LinearOrder κ] :
    System (OwnerLeases ι κ) (ι × IssueLabel κ) :=
  .ofFunction (fun owner => owner = ⟨none, .empty, fun _ => .idle, []⟩) next

/-- Nothing has come into the index since the call that writes it has read it, and a lease
does not get the path of an issued one. -/
def IssuesApart (owner : OwnerLeases ι κ) (label : ι × IssueLabel κ) : Prop :=
  match label.2, owner.calls label.1 with
  | .advance, .writeIndex _ _ paths => owner.index.getD [] ⊆ paths
  | .advance, .writeLease path _ => path ∉ owner.issued.map Prod.fst
  | _, _ => True

/-! ## The index lists what is issued -/

/-- What the call knows of its own path. -/
def IssuePhase.Sound (index : List κ) : IssuePhase κ → Prop
  | .writeIndex path _ paths => path ∈ paths
  | .writeLease path _ => path ∈ index
  | _ => True

omit [LinearOrder κ] in
theorem IssuePhase.Sound.mono {index grown : List κ} {phase : IssuePhase κ}
    (sound : phase.Sound index) (subset : index ⊆ grown) : phase.Sound grown := by
  cases phase with
  | writeLease => exact subset sound
  | _ => exact sound

structure OwnerLeases.Indexed (owner : OwnerLeases ι κ) : Prop where
  stored : ∀ path lease, (path, lease) ∈ owner.issued →
    owner.files.get path = some lease ∧ path ∈ owner.index.getD []
  sound : ∀ caller, (owner.calls caller).Sound (owner.index.getD [])

theorem mem_indexOf {paths : List κ} {path : κ} : path ∈ indexOf paths ↔ path ∈ paths := by
  simp [indexOf]

theorem mem_indexLeasePath (path : κ) (index : Option (List κ)) :
    path ∈ indexLeasePath path index := by
  unfold indexLeasePath
  dsimp only
  split
  · assumption
  · simp

namespace OwnerLeases.Indexed

variable {owner after : OwnerLeases ι κ} {caller : ι} {phase : IssuePhase κ}

theorem moved (indexed : owner.Indexed) (calls : after.calls = update owner.calls caller phase)
    (grown : owner.index.getD [] ⊆ after.index.getD []) (sound : phase.Sound (after.index.getD []))
    (stored : ∀ path lease, (path, lease) ∈ after.issued →
      after.files.get path = some lease ∧ path ∈ after.index.getD []) : after.Indexed := by
  refine ⟨stored, ?_⟩
  rw [calls]
  exact (forall_update_iff _ fun _ => IssuePhase.Sound _).mpr
    ⟨sound, fun other _ => (indexed.sound other).mono grown⟩

theorem step (indexed : owner.Indexed) (label : ι × IssueLabel κ)
    (apart : IssuesApart owner label) : (owner.next label).Indexed := by
  obtain ⟨caller, _⟩ := label
  have known := indexed.sound caller
  unfold IssuesApart at apart
  unfold next
  dsimp only at *
  split
  · exact indexed.moved rfl (fun _ => id) trivial indexed.stored
  · exact indexed.moved rfl (fun _ => id) (mem_indexLeasePath ..) indexed.stored
  next paths writing =>
    simp only [writing] at apart known
    have grown : owner.index.getD [] ⊆ indexOf paths := fun _ listed =>
      mem_indexOf.mpr (apart listed)
    exact indexed.moved rfl grown (mem_indexOf.mpr known) fun path lease issued =>
      (indexed.stored path lease issued).imp_right (grown ·)
  next path _ writing =>
    simp only [writing] at apart known
    refine indexed.moved rfl (fun _ => id) trivial fun other issued listed => ?_
    cases listed with
    | head => exact ⟨Table.get_insert_self .., known⟩
    | tail _ earlier =>
      have different : other ≠ path := by
        rintro rfl
        exact apart (mem_map_of_mem earlier)
      exact (indexed.stored _ _ earlier).imp_left (Table.get_insert_of_ne _ _ different).trans
  · exact indexed.moved rfl (fun _ => id) trivial indexed.stored
  · exact indexed

end OwnerLeases.Indexed

namespace leaseIssues

variable {owner : OwnerLeases ι κ}

theorem indexed (reached : (leaseIssues ι κ).Reachable IssuesApart owner) : owner.Indexed := by
  refine reached.invariant OwnerLeases.Indexed ?_ ?_
  · rintro _ rfl
    exact ⟨nofun, fun _ => trivial⟩
  · rintro _ label _ indexed apart rfl
    exact indexed.step label apart

/-- A lease that `issue` returned is listed by `leases_for_scope`, which may read each file
later than the index. -/
theorem issued_leases_listed (reached : (leaseIssues ι κ).Reachable IssuesApart owner)
    (reads : κ → OwnerLeases ι κ)
    (later : ∀ path, (leaseIssues ι κ).Reachable IssuesApart (reads path) ∧
      owner.issued ⊆ (reads path).issued)
    {path : κ} {lease : CapabilityLease} (issued : (path, lease) ∈ owner.issued) :
    lease ∈ leasesForScope owner.leasePaths fun path => (reads path).files.get path := by
  have listed := ((indexed reached).stored path lease issued).2
  have stored := ((indexed (later path).1).stored path lease ((later path).2 issued)).1
  rw [leasesForScope, mem_mergeSort, mem_filterMap]
  refine ⟨path, ?_, stored⟩
  unfold leasePaths
  cases found : owner.index with
  | none => simp [found] at listed
  | some => simpa [found] using listed

def sampleLease (id : Nat) : CapabilityLease := ⟨⟨id⟩, ⟨"send"⟩, none, none, none, .active⟩

/-- The instance issues a lease with nothing in between. -/
def issueOf (caller : Bool) (id : Nat) : List (Bool × IssueLabel Nat) :=
  [.issue id (sampleLease id), .advance, .advance, .advance].map (caller, ·)

/-- The owner's files after accesses of two instances. -/
def accessed (labels : List (Bool × IssueLabel Nat)) : OwnerLeases Bool Nat :=
  labels.foldl next ⟨none, .empty, fun _ => .idle, []⟩

theorem started {guard} : (leaseIssues Bool Nat).Reachable guard (accessed []) := .start rfl

theorem subset_indexLeasePath (path : κ) (index : Option (List κ)) :
    index.getD [] ⊆ indexLeasePath path index := by
  unfold indexLeasePath
  dsimp only
  split
  · exact Subset.refl _
  · exact subset_append_left _ _

/-- The second instance reads the index between the writes of the first. -/
def betweenWrites : List (Bool × IssueLabel Nat) :=
  [(false, .issue 1 (sampleLease 1)), (true, .issue 2 (sampleLease 2)), (false, .advance),
    (false, .advance), (true, .advance), (false, .advance), (true, .advance), (true, .advance)]

theorem both_issues_listed : let owner := accessed betweenWrites
    (1, sampleLease 1) ∈ owner.issued ∧ (2, sampleLease 2) ∈ owner.issued ∧
      sampleLease 1 ∈ leasesForScope owner.leasePaths owner.files.get ∧
      sampleLease 2 ∈ leasesForScope owner.leasePaths owner.files.get := by
  have reached : (leaseIssues Bool Nat).Reachable IssuesApart _ :=
    started.followAllowed betweenWrites ⟨trivial, trivial, trivial, nil_subset _, trivial,
      not_mem_nil, subset_indexLeasePath _ _, show 2 ∉ [1] by decide, trivial⟩
  have first : (1, sampleLease 1) ∈ (accessed betweenWrites).issued := by decide
  have second : (2, sampleLease 2) ∈ (accessed betweenWrites).issued := by decide
  exact ⟨first, second, issued_leases_listed reached _ (fun _ => ⟨reached, fun _ => id⟩) first,
    issued_leases_listed reached _ (fun _ => ⟨reached, fun _ => id⟩) second⟩

/-- Both instances read the index before either writes it, and the second write drops the
first lease. -/
theorem overlapping_issue_unlisted :
    let owner := accessed (((issueOf false 1).zip (issueOf true 2)).flatMap fun both =>
      [both.1, both.2])
    (leaseIssues Bool Nat).Reachable System.anyStep owner ∧
      (1, sampleLease 1) ∈ owner.issued ∧
      sampleLease 1 ∉ leasesForScope owner.leasePaths owner.files.get := by
  refine ⟨started.follow _, by decide, fun returned => ?_⟩
  rw [leasesForScope, mem_mergeSort, mem_filterMap] at returned
  obtain ⟨path, listed, read⟩ := returned
  obtain rfl : path = 2 := by simpa using mem_indexOf.mp (show path ∈ indexOf [2] from listed)
  exact absurd read (by decide)

end leaseIssues

end Ironclaw.Authorization
