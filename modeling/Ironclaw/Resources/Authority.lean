import Ironclaw.Resources.Locality

/-!
# The authority of the persistent governor

The persistent governor keeps its state in shards of accounts and one map of
reservations.  A call copies the entries of its accounts and the record it names into a
projection, runs the operation there, and writes the projection back only if the operation
was done.
-/

namespace Ironclaw.Resources

open HostApi Lib Table AccountParts Function

/-- The standard hasher, fed with an account. -/
class AccountHasher where
  finish : ResourceAccount → Nat

abbrev accountShards : Nat := 64

def accountShardIndex [hasher : AccountHasher] (account : ResourceAccount) : Fin accountShards :=
  ⟨hasher.finish account % accountShards, Nat.mod_lt _ (by decide)⟩

variable [platform : Platform]

structure AccountShard where
  limits : Table ResourceAccount ResourceLimits
  reservedByAccount : Table ResourceAccount ResourceTally
  usageByAccount : Table ResourceAccount ResourceTally
  periodAnchors : Table ResourceAccount DateTime

namespace AccountShard

def empty : AccountShard := ⟨.empty, .empty, .empty, .empty⟩

variable (shard : AccountShard) (account : ResourceAccount)

def parts : AccountParts where
  limits := shard.limits.get account
  reserved := shard.reservedByAccount.get account
  usage := shard.usageByAccount.get account
  periodAnchor := shard.periodAnchors.get account

/-- The body of the loop of `write_accounts_from_state`. -/
def write (parts : AccountParts) : AccountShard where
  limits := shard.limits.writeOptional account parts.limits
  reservedByAccount := shard.reservedByAccount.writeOptional account parts.reserved
  usageByAccount := shard.usageByAccount.writeOptional account parts.usage
  periodAnchors := shard.periodAnchors.writeOptional account parts.periodAnchor

theorem parts_write (entries : AccountParts)
    (other : ResourceAccount) : (shard.write account entries).parts other =
      if other = account then entries else shard.parts other := by
  by_cases same : other = account
  · rw [if_pos same]
    simp [parts, write, get_writeOptional, same]
  · rw [if_neg same]
    simp [parts, write, get_writeOptional, same]

end AccountShard

structure ResourceAuthority where
  shards : Fin accountShards → AccountShard
  reservations : Table ResourceReservationId ReservationRecord

namespace ResourceAuthority

variable [hasher : AccountHasher]

/-- The authority that is loaded from an empty snapshot and an empty journal. -/
def empty : ResourceAuthority := ⟨fun _ => .empty, .empty⟩

def parts (authority : ResourceAuthority) (account : ResourceAccount) : AccountParts :=
  (authority.shards (accountShardIndex account)).parts account

def cell (authority : ResourceAuthority) : (cell : ResourceCell) → cell.Value
  | .account account => authority.parts account
  | .record id => authority.reservations.get id

/-- One place is written; the accounts under the lock of their shard, the records under the
lock of the reservations. -/
def write (authority : ResourceAuthority) : (cell : ResourceCell) → cell.Value → ResourceAuthority
  | .account account, entries =>
    { authority with
      shards := update authority.shards (accountShardIndex account)
        ((authority.shards (accountShardIndex account)).write account entries) }
  | .record id, record =>
    { authority with reservations := authority.reservations.writeOptional id record }

variable (authority : ResourceAuthority)

theorem parts_write (account : ResourceAccount) (entries : AccountParts) (other : ResourceAccount) :
    (authority.write (.account account) entries).parts other =
      if other = account then entries else authority.parts other := by
  unfold parts write
  by_cases shard : accountShardIndex other = accountShardIndex account
  · simp only [shard, update_self, AccountShard.parts_write]
  · rw [if_neg fun same => shard (congrArg accountShardIndex same)]
    simp only [update_of_ne shard]

theorem cell_write_self (cell : ResourceCell) (value : cell.Value) :
    (authority.write cell value).cell cell = value := by
  cases cell with
  | account account => exact (authority.parts_write account value account).trans (if_pos rfl)
  | record => exact (get_writeOptional _ _ _ _).trans (if_pos rfl)

theorem cell_write_of_ne {cell other : ResourceCell} (value : cell.Value)
    (different : other ≠ cell) :
    (authority.write cell value).cell other = authority.cell other := by
  cases cell with
  | account account =>
    cases other with
    | account other =>
      exact (authority.parts_write account value other).trans
        (if_neg fun same => different (congrArg _ same))
    | record => rfl
  | record =>
    cases other with
    | account => rfl
    | record =>
      exact (get_writeOptional _ _ _ _).trans
        (if_neg fun same => different (congrArg _ same))

/-! ## Projections -/

/-- The body of the loop of `state_for_accounts`. -/
def projectAccount (authority : ResourceAuthority) (state : ResourceState)
    (account : ResourceAccount) : ResourceState :=
  let entries := authority.parts account
  { state with
    limits := state.limits.insertSome account entries.limits
    reservedByAccount := state.reservedByAccount.insertSome account entries.reserved
    usageByAccount := state.usageByAccount.insertSome account entries.usage
    periodAnchors := state.periodAnchors.insertSome account entries.periodAnchor }

def stateForAccounts (authority : ResourceAuthority) (accounts : List ResourceAccount)
    (reservations : Table ResourceReservationId ReservationRecord) : ResourceState :=
  accounts.foldl authority.projectAccount { ResourceState.empty with reservations }

theorem parts_projectAccount (state : ResourceState) (account other : ResourceAccount) :
    (authority.projectAccount state account).parts other =
      if other = account then (authority.parts other).orElse (state.parts other)
      else state.parts other := by
  by_cases same : other = account
  · subst same
    simp [projectAccount, ResourceState.parts, orElse, get_insertSome]
  · simp [projectAccount, ResourceState.parts, get_insertSome, same]

theorem parts_stateForAccounts {accounts : List ResourceAccount} (nodup : accounts.Nodup)
    (reservations : Table ResourceReservationId ReservationRecord) (account : ResourceAccount) :
    (authority.stateForAccounts accounts reservations).parts account =
      if account ∈ accounts then authority.parts account else ⟨none, none, none, none⟩ := by
  refine (view_foldl ResourceState.parts authority.projectAccount
    (fun account entries => (authority.parts account).orElse entries)
    authority.parts_projectAccount nodup _ account).trans ?_
  split
  · simp [orElse, ResourceState.parts, ResourceState.empty]
  · rfl

@[simp] theorem reservations_stateForAccounts (accounts : List ResourceAccount)
    (reservations : Table ResourceReservationId ReservationRecord) :
    (authority.stateForAccounts accounts reservations).reservations = reservations :=
  foldl_keeps ResourceState.reservations authority.projectAccount (fun _ _ => rfl) accounts _

end ResourceAuthority

open ResourceAuthority

/-! ## Calls -/

/-- A call that has found its accounts and read the clock. -/
structure GovernorJob where
  op : ResourceOp
  accounts : List ResourceAccount
  now : DateTime

namespace GovernorJob

/-- The places that a job copies and writes back. -/
def cells (job : GovernorJob) : List ResourceCell :=
  job.accounts.map .account ++ job.op.recordId.toList.map .record

theorem mem_cells {job : GovernorJob} {cell : ResourceCell} :
    cell ∈ job.cells ↔ job.op.Touches job.accounts cell := by
  unfold cells
  cases cell with
  | account | record => simp [ResourceOp.Touches]

variable [hasher : AccountHasher]

/-- The part of the reservations that the projection holds. -/
def reservationSubset (job : GovernorJob) (authority : ResourceAuthority) :
    Table ResourceReservationId ReservationRecord :=
  match job.op.recordId with
  | none => .empty
  | some id => empty.insertSome id (authority.reservations.get id)

def project (job : GovernorJob) (authority : ResourceAuthority) : ResourceState :=
  authority.stateForAccounts job.accounts (job.reservationSubset authority)

def work (job : GovernorJob) (authority : ResourceAuthority) : GovernorAnswer × ResourceState :=
  (job.project authority).apply job.op job.now

/-- The projection that is written back, if the operation was done. -/
def change (job : GovernorJob) (authority : ResourceAuthority) : Option ResourceState :=
  if (job.work authority).1.isOk then some (job.work authority).2 else none

def writeBack (job : GovernorJob) (authority : ResourceAuthority) (after : ResourceState) :
    ResourceAuthority :=
  job.cells.foldl (fun authority cell => authority.write cell (after.cell cell)) authority

def run (job : GovernorJob) (authority : ResourceAuthority) : GovernorAnswer × ResourceAuthority :=
  match job.change authority with
  | none => ((job.work authority).1, authority)
  | some after => ((job.work authority).1, job.writeBack authority after)

variable {first second : ResourceAuthority} (job : GovernorJob)

theorem cell_writeBack (authority : ResourceAuthority) (after : ResourceState)
    (cell : ResourceCell) : (job.writeBack authority after).cell cell =
      if cell ∈ job.cells then after.cell cell else authority.cell cell := by
  unfold writeBack
  induction job.cells generalizing authority with
  | nil => rfl
  | cons first _ ih =>
    rw [List.foldl_cons, ih]
    by_cases same : cell = first
    · subst same
      simp [cell_write_self]
    · simp [cell_write_of_ne authority _ same, same]

theorem cell_project {job : GovernorJob} (nodup : job.accounts.Nodup)
    (authority : ResourceAuthority) {cell : ResourceCell} (member : cell ∈ job.cells) :
    (job.project authority).cell cell = authority.cell cell := by
  have touched := mem_cells.mp member
  cases cell with
  | account account =>
    exact (authority.parts_stateForAccounts nodup _ account).trans (if_pos touched)
  | record id =>
    change (job.project authority).reservations.get id = authority.reservations.get id
    have looks : job.op.recordId = some id := touched
    rw [project, reservations_stateForAccounts, reservationSubset, looks]
    simp [get_insertSome]

theorem project_congr (same : ∀ cell ∈ job.cells, first.cell cell = second.cell cell) :
    job.project first = job.project second := by
  have accounts : ∀ state, ∀ account ∈ job.accounts,
      first.projectAccount state account = second.projectAccount state account := by
    intro _ account member
    have parts : first.parts account = second.parts account :=
      same (.account account) (mem_cells.mpr member)
    unfold projectAccount
    rw [parts]
  have records : job.reservationSubset first = job.reservationSubset second := by
    unfold reservationSubset
    cases looks : job.op.recordId with
    | none => rfl
    | some id =>
      have record : first.reservations.get id = second.reservations.get id :=
        same (.record id) (mem_cells.mpr looks)
      simp only [record]
  unfold project stateForAccounts
  rw [records]
  exact List.foldl_ext _ _ _ accounts

theorem change_congr (same : ∀ cell ∈ job.cells, first.cell cell = second.cell cell) :
    job.change first = job.change second := by
  unfold change work
  rw [job.project_congr same]

end GovernorJob

open GovernorJob

/-- A call of the persistent governor with nobody else around.  The accounts of a
reservation that is closed are looked up first. -/
def ResourceAuthority.call [AccountHasher] (authority : ResourceAuthority) (op : ResourceOp)
    (now : DateTime) : GovernorAnswer × ResourceAuthority :=
  match op with
  | .setLimit account _ => run ⟨op, [account], now⟩ authority
  | .reserve scope _ _ => run ⟨op, ResourceAccount.cascade scope, now⟩ authority
  | .reconcile id _ =>
    match authority.reservations.get id with
    | none => (.closed (.error (.unknownReservation id)), authority)
    | some record => run ⟨op, record.accounts, now⟩ authority
  | .release id =>
    match authority.reservations.get id with
    | none => (.closed (.error (.unknownReservation id)), authority)
    | some record => run ⟨op, record.accounts, now⟩ authority

/-! ## The authority and one state -/

/-- The authority shows what the state holds. -/
def ResourceAuthority.Shows [AccountHasher] (authority : ResourceAuthority)
    (state : ResourceState) : Prop :=
  ∀ cell, authority.cell cell = state.cell cell

theorem shows_empty [AccountHasher] : empty.Shows .empty
  | .account _ => rfl
  | .record _ => rfl

namespace GovernorJob

variable [hasher : AccountHasher] (job : GovernorJob) {authority : ResourceAuthority}
  {state : ResourceState}

variable (shows : authority.Shows state)
include shows

theorem project_alike (nodup : job.accounts.Nodup) (worksOn : job.op.WorksOn state job.accounts) :
    ResourceState.Alike (fun first second => first = second) job.op job.accounts
      (state.apply job.op job.now) (job.work authority) := by
  have same : ∀ {cell}, job.op.Touches job.accounts cell →
      state.cell cell = (job.project authority).cell cell := by
    intro cell touched
    rw [cell_project nodup authority (mem_cells.mpr touched), shows cell]
  have agree : ResourceState.AgreeOn (fun first second => first = second) job.op job.accounts
      state (job.project authority) :=
    ⟨fun account member => @same (.account account) member,
      fun id looks => @same (.record id) looks⟩
  exact ResourceState.apply_alike congruence_eq worksOn agree job.now

theorem work_answer (nodup : job.accounts.Nodup) (worksOn : job.op.WorksOn state job.accounts) :
    (job.work authority).1 = (state.apply job.op job.now).1 :=
  (job.project_alike shows nodup worksOn).answer.symm

theorem shows_writeBack (nodup : job.accounts.Nodup) (worksOn : job.op.WorksOn state job.accounts) :
    (job.writeBack authority (job.work authority).2).Shows (state.apply job.op job.now).2 := by
  intro cell
  rw [cell_writeBack]
  split
  next member =>
    have agree := (job.project_alike shows nodup worksOn).agree
    have touched := mem_cells.mp member
    cases cell with
    | account account => exact (agree.parts account touched).symm
    | record id => exact (agree.record id touched).symm
  next outside =>
    rw [shows cell, ResourceState.apply_frame worksOn job.now (mt mem_cells.mpr outside)]

end GovernorJob

end Ironclaw.Resources
