import Ironclaw.Filesystem.Footprint
import Ironclaw.Filesystem.Scoped

/-!
# Confinement of the scoped filesystem

Operations at one path touch what the grant of the path permits.  Deletion, queries and
transactions work on everything below a virtual path, also on what a nested mount of the
view protects; they stay within the view if the mounts of the view never differ there in
a way that matters.
-/

namespace Ironclaw.Filesystem

open HostApi
open ScopedFilesystem (withFixedView)
open Lib ScopedFilesystem Observer.Within Table Entry MountView Observer VirtualPath
open ScopedStorageTxn (check checkPath checked mk)

/-- The operation that a permission for the access is asked for. -/
def accessOperation : Access → FilesystemOperation
  | .read => .readFile
  | .write => .writeFile
  | .delete => .delete

/-- Some scoped path reaches the location with a grant for the access. -/
def ReachedFor (view : MountView) (access : Access) (location : VirtualPath) : Prop :=
  Reaches view location (accessOperation access)

inductive ScopedOperation where
  | direct (call : ScopedCall)
  | transaction (path : ScopedPath) (calls : List TxnCall)

/-- Some call of the transaction touches the location, on the state the calls before it left. -/
def ScopedStorageTxn.Touches (txn : ScopedStorageTxn) (state : State) (access : Access)
    (location : VirtualPath) : List TxnCall → Prop
  | [] => False
  | call :: rest =>
    storeObserver.Touches (fun before => txn.run before call) state access location ∨
      txn.Touches (txn.run state call).2 access location rest

def ScopedOperation.Touches (filesystem : ScopedFilesystem) (scope : ResourceScope)
    (state : State) (access : Access) (location : VirtualPath) : ScopedOperation → Prop
  | .direct call =>
    storeObserver.Touches (fun before => filesystem.run scope before call) state access location
  | .transaction path calls =>
    ∃ txn, filesystem.begin scope path = .ok txn ∧ txn.Touches state access location calls

/-! ## Operations at one path -/

section

variable {view : MountView} {root : Backend} {scope : ResourceScope} {path : ScopedPath}
  {α : Type} {operation : FilesystemOperation}

theorem resolveWithPermissionView_ok {virtual : VirtualPath}
    (resolved : resolveWithPermissionView view path operation = .ok virtual) :
    ∃ grant, view.resolveWithGrant path = .ok (virtual, grant) ∧
      operationAllowed grant.permissions operation = true := by
  unfold resolveWithPermissionView at resolved
  split at resolved
  · cases resolved
  rename_i grant found
  split at resolved
  next allowed =>
    cases resolved
    exact ⟨grant, found, allowed⟩
  · cases resolved

theorem permitted_eq (call : VirtualPath → State → Except FilesystemError α × State)
    (state : State) : (withFixedView root view).permitted scope path operation call state =
      match resolveWithPermissionView view path operation with
      | .error error => (.error error, state)
      | .ok virtual => call virtual state :=
  rfl

variable {call : VirtualPath → State → Except FilesystemError α × State}

theorem permitted_within {allowed : Access → VirtualPath → Prop}
    (within : ∀ virtual grant, view.resolveWithGrant path = .ok (virtual, grant) →
      operationAllowed grant.permissions operation = true →
        storeObserver.Within (call virtual) allowed) :
    storeObserver.Within
      ((withFixedView root view).permitted scope path operation call)
      allowed := by
  rw [funext (permitted_eq call)]
  cases resolved : resolveWithPermissionView view path operation with
  | error => exact within_refusal _
  | ok virtual =>
    obtain ⟨grant, found, allows⟩ := resolveWithPermissionView_ok resolved
    exact within virtual grant found allows

/-- A call that touches only the path it resolved to is covered by the grant of the path. -/
theorem atPath_reached (operation : FilesystemOperation) (access : Access)
    (same : (operationAllowed · operation) = (operationAllowed · (accessOperation access)))
    (within : ∀ virtual, storeObserver.Within (call virtual) (AtPath access virtual)) :
    storeObserver.Within
      ((withFixedView root view).permitted scope path operation call)
      (ReachedFor view) := by
  refine permitted_within fun virtual grant found allows => (within virtual).mono ?_
  rintro actual _ ⟨rfl, rfl⟩
  exact ⟨path, grant, found, (congrFun same _).symm.trans allows⟩

end

/-! ## Operations on a subtree -/

/-- The accesses that a grant opens to everything below a path: queries ask for reading and
listing, transactions for writing. -/
def sweeps (permissions : MountPermissions) : Access → Bool
  | .read => permissions.read && (permissions.list || permissions.write)
  | .write => permissions.write
  | .delete => permissions.delete

instance : Fintype Access :=
  Fintype.ofList [.read, .write, .delete] fun access => by cases access <;> decide

/-- Wherever another mount takes a path behind a mount that is in use, the view grants what
the mount opens to everything below.  This compares the mounts at finitely many places. -/
def SealsNested (view : MountView) : Prop :=
  ∀ mount ∈ view.mounts, mountBehind view mount [] = some mount →
    ∀ rest ∈ breakpoints view view mount, mountBehind view mount rest ≠ some mount →
      ∀ access, sweeps mount.permissions access = true →
        Grants view (mount.target.path.parts ++ rest) (accessOperation access)

instance (view : MountView) : Decidable (SealsNested view) :=
  inferInstanceAs (Decidable (∀ mount ∈ view.mounts, _))

variable {location : VirtualPath}

section

variable {view : MountView} {mount : MountGrant} {rest : List Text} {access : Access}

theorem sweeps_allowed {permissions : MountPermissions} (swept : sweeps permissions access = true) :
    operationAllowed permissions (accessOperation access) = true := by
  cases access with
  | read => exact (Bool.and_eq_true _ _ ▸ swept).1
  | write | delete => exact swept

theorem mountBehind_nil (wellFormed : ∀ part ∈ rest, IsPart part)
    (routed : mountBehind view mount rest = some mount) :
    mountBehind view mount [] = some mount := by
  obtain ⟨_, _, longest⟩ := @governs_of_mountFor view
    ⟨mount.mountAlias.path.append rest wellFormed⟩ mount routed
  rw [← routed]
  refine mountBehind_congr (List.forall_mem_nil _) wellFormed fun grant listed => ?_
  rw [List.append_nil]
  exact ⟨fun matching => matching.trans (List.prefix_append _ _), longest grant listed⟩

/-- The comparison at the breakpoints settles everything below a mount in use. -/
theorem SealsNested.grants (sealed : SealsNested view)
    (used : mountBehind view mount [] = some mount) (wellFormed : ∀ part ∈ rest, IsPart part)
    (swept : sweeps mount.permissions access = true) :
    Grants view (mount.target.path.parts ++ rest) (accessOperation access) := by
  by_cases routed : mountBehind view mount rest = some mount
  · exact grants_append routed (sweeps_allowed swept)
  obtain ⟨point, isPoint, sameMount, _, transfers⟩ := exists_breakpoint view view mount wellFormed
  have taken : mountBehind view mount point ≠ some mount := sameMount ▸ routed
  refine transfers _ ?_
  rcases isPoint with rfl | isPoint
  · exact absurd used taken
  · exact sealed mount (mem_of_mountFor used) used point isPoint taken access swept

theorem SealsNested.reached (sealed : SealsNested view) {path : ScopedPath}
    {virtual : VirtualPath} (found : view.resolveWithGrant path = .ok (virtual, mount))
    (swept : sweeps mount.permissions access = true)
    (below : virtual.path.parts <+: location.path.parts) : ReachedFor view access location := by
  obtain ⟨routed, rest, parts, shape⟩ := resolveWithGrant_ok found
  obtain ⟨further, tail⟩ := below
  rw [shape, List.append_assoc] at tail
  have inRest : ∀ part ∈ rest, IsPart part := fun part listed =>
    path.path.wellFormed part (parts ▸ List.mem_append_right _ listed)
  have wellFormed : ∀ part ∈ rest ++ further, IsPart part := fun part listed =>
    location.path.wellFormed part (tail ▸ List.mem_append_right _ listed)
  have behind : mountBehind view mount rest = some mount := by
    rw [mountBehind, ← parts]
    exact routed
  rw [ReachedFor, ← grants_iff_reaches, ← tail]
  exact sealed.grants (mountBehind_nil inRest behind) wellFormed swept

end

/-! ## Every operation of a sealed view -/

variable {α : Type} {operation : FilesystemOperation}

section

variable {view : MountView} {root : Backend} {scope : ResourceScope}

def ScopedFilesystem.bodyOf (filesystem : ScopedFilesystem) (scope : ResourceScope)
    (path : ScopedPath) :
    Except FilesystemError (Option VersionedEntry) → Except FilesystemError (List UInt8)
  | .error error => .error error
  | .ok (some found) => .ok found.entry.body
  | .ok none =>
    match filesystem.resolveWithPermission scope path .readFile with
    | .error error => .error error
    | .ok virtual => .error (.notFound virtual .readFile)

theorem readBytes_within (path : ScopedPath) :
    storeObserver.Within ((withFixedView root view).readBytes scope path)
      (ReachedFor view) := by
  let filesystem := withFixedView root view
  have shape : filesystem.readBytes scope path = fun state =>
      (filesystem.bodyOf scope path (filesystem.get scope path state).1,
        (filesystem.get scope path state).2) := by
    funext state
    unfold readBytes
    rcases filesystem.get scope path state with ⟨_ | (_ | _), _⟩
    · rfl
    · cases resolved : filesystem.resolveWithPermission scope path .readFile <;>
        simp only [bodyOf, resolved]
    · rfl
  rw [show (withFixedView root view).readBytes scope path = _ from shape]
  exact (atPath_reached .readFile .read rfl fun _ => get_within).map _

theorem SealsNested.run_within (sealed : SealsNested view) (call : ScopedCall) :
    storeObserver.Within
      (fun state => (withFixedView root view).run scope state call)
      (ReachedFor view) := by
  cases call with
  | put path entry cas =>
    exact (atPath_reached .writeFile .write rfl fun _ => put_within entry cas).map _
  | get path => exact (atPath_reached .readFile .read rfl fun _ => get_within).map _
  | query path filter page =>
    refine map _ (permitted_within fun virtual grant found allows => ?_)
    refine (query_within root.rules filter page).mono ?_
    rintro actual _ ⟨rfl, below⟩
    have both := (Bool.and_eq_true _ _).mp allows
    exact sealed.reached found (by simp [sweeps, both.1, both.2]) below
  | append path payload =>
    exact (atPath_reached .append .write rfl fun _ => append_within payload).map _
  | appendBatch path payloads =>
    exact (atPath_reached .append .write rfl fun _ => appendBatch_within payloads).map _
  | tail path start => exact (atPath_reached .tail .read rfl fun _ => tail_within start).map _
  | tailBounded path start maxRecords =>
    exact (atPath_reached .tail .read rfl fun _ => tailBounded_within start maxRecords).map _
  | headSeq path start =>
    exact (atPath_reached .headSeq .read rfl fun _ => headSeq_within start).map _
  | reserveSequence path =>
    exact (atPath_reached .reserveSeq .write rfl fun _ => reserveSequence_within).map _
  | readFile path => exact (atPath_reached .readFile .read rfl fun _ => readFile_within).map _
  | writeFile path bytes =>
    exact (atPath_reached .writeFile .write rfl fun _ => writeFile_within bytes).map _
  | appendFile path bytes =>
    exact (atPath_reached .appendFile .write rfl fun _ => appendFile_within bytes).map _
  | delete path =>
    refine map _ (permitted_within fun virtual grant found allows => ?_)
    refine delete_within.mono ?_
    rintro _ _ ⟨rfl, below⟩
    exact sealed.reached found allows below
  | deleteIfVersion path expected =>
    exact (atPath_reached .delete .delete rfl fun _ => deleteIfVersion_within expected).map _
  | readBytes path => exact (readBytes_within path).map _
  | readBytesBounded path maxBytes =>
    exact (atPath_reached .readFile .read rfl fun _ => readFileBounded_within maxBytes).map _
  | writeBytes =>
    refine map _ ?_
    exact (atPath_reached .writeFile .write rfl fun _ => put_within _ .any).map _

/-! ## Transactions of a sealed view -/

variable {txn : ScopedStorageTxn} {path : ScopedPath}

theorem begin_eq (root : Backend) (view : MountView) (scope : ResourceScope) (path : ScopedPath) :
    (withFixedView root view).begin scope path =
      match resolveWithPermissionView view path .beginTxn with
      | .error error => .error error
      | .ok virtual =>
        match root.begin virtual with
        | .error error => .error error
        | .ok inner =>
          match view.resolveWithGrant path with
          | .error error => .error (.contract error)
          | .ok (_, grant) => .ok ⟨inner, grant.permissions, virtual⟩ :=
  rfl

/-- What a transaction carries from the grant of the prefix it was opened for. -/
theorem begin_ok (opened : (withFixedView root view).begin scope path = .ok txn) :
    ∃ virtual grant, view.resolveWithGrant path = .ok (virtual, grant) ∧
      grant.permissions.write = true ∧ txn = ⟨⟨virtual⟩, grant.permissions, virtual⟩ := by
  rw [begin_eq] at opened
  cases resolved : resolveWithPermissionView view path .beginTxn with
  | error => rw [resolved] at opened; cases opened
  | ok virtual =>
    obtain ⟨grant, found, allows⟩ := resolveWithPermissionView_ok resolved
    rw [resolved] at opened
    simp only [found] at opened
    unfold Backend.begin at opened
    split at opened
    · cases opened
    rename_i started
    split at started
    · cases started
      cases opened
      exact ⟨virtual, grant, found, allows, rfl⟩
    · cases started

theorem checked_within {place : VirtualPath}
    {call : State → Except FilesystemError α × State} {allowed : Access → VirtualPath → Prop}
    (within : operationAllowed txn.permissions operation = true →
      txn.mountPrefix.path.parts <+: place.path.parts → storeObserver.Within call allowed) :
    storeObserver.Within (txn.checked place operation (txn.inner.inside place call)) allowed := by
  unfold checked check checkPath
  split_ifs with allows inside
  · unfold StorageTxn.inside StorageTxn.checkPath
    split_ifs
    · exact within allows (pathPrefixMatches_iff.mp inside)
    · exact within_refusal _
  all_goals exact within_refusal _

theorem SealsNested.txn_within (sealed : SealsNested view)
    (opened : (withFixedView root view).begin scope path = .ok txn) (call : TxnCall) :
    storeObserver.Within (fun state => txn.run state call) (ReachedFor view) := by
  obtain ⟨_, grant, found, writes, rfl⟩ := begin_ok opened
  cases call with
  | put place entry cas =>
    refine map _ (checked_within fun _ below => (put_within entry cas).mono ?_)
    rintro actual location ⟨rfl, rfl⟩
    exact sealed.reached found writes below
  | get place =>
    refine map _ (checked_within fun reads below => get_within.mono ?_)
    rintro actual location ⟨rfl, rfl⟩
    have swept : sweeps grant.permissions .read = true := by
      change (grant.permissions.read && (grant.permissions.list || grant.permissions.write)) = true
      rw [writes, Bool.or_true, Bool.and_true]
      exact reads
    exact sealed.reached found swept below
  | delete =>
    refine map _ (checked_within fun deletes below => delete_within.mono ?_)
    rintro actual _ ⟨rfl, further⟩
    exact sealed.reached found deletes (below.trans further)
  | reserveSequence =>
    refine map _
      (checked_within fun _ below => reserveSequence_within.mono ?_)
    rintro _ _ ⟨rfl, rfl⟩
    exact sealed.reached found writes below

theorem SealsNested.session_reached (sealed : SealsNested view)
    (opened : (withFixedView root view).begin scope path = .ok txn)
    (calls : List TxnCall) {state : State} {access : Access}
    (touched : txn.Touches state access location calls) : ReachedFor view access location := by
  induction calls generalizing state with
  | nil => exact touched.elim
  | cons call _ ih =>
    rcases touched with here | later
    · exact sealed.txn_within opened call state access location here
    · exact ih later

end

/-! ## What a transaction leaves -/

def State.held (state : State) (location : VirtualPath) :
    Option StoredEntry × Option (List EventRecord) × Option SeqNo :=
  (state.entries.get location, state.eventLogs.get location, state.sequences.get location)

namespace ScopedStorageTxn

/-- The path is below the prefix, and the grant permits some change. -/
def Governs (txn : ScopedStorageTxn) (location : VirtualPath) : Prop :=
  txn.mountPrefix.path.parts <+: location.path.parts ∧
    (txn.permissions.write = true ∨ txn.permissions.delete = true)

variable {txn : ScopedStorageTxn}

theorem run_within (call : TxnCall) :
    storeObserver.Within (txn.run · call) fun access location =>
      access = .read ∨ txn.Governs location := by
  cases call with
  | put _ entry cas =>
    refine map _ (checked_within fun writes below => (put_within entry cas).mono ?_)
    rintro _ _ ⟨_, rfl⟩
    exact .inr ⟨below, .inl writes⟩
  | get => exact map _ (checked_within fun _ _ => get_within.mono fun _ _ here => .inl here.1)
  | delete =>
    refine map _ (checked_within fun deletes below => delete_within.mono fun _ _ here => ?_)
    exact .inr ⟨below.trans here.2, .inr deletes⟩
  | reserveSequence =>
    refine map _ (checked_within fun writes below => reserveSequence_within.mono ?_)
    rintro _ _ ⟨_, rfl⟩
    exact .inr ⟨below, .inl writes⟩

theorem run_held (outside : ¬txn.Governs location) (state : State) (call : TxnCall) :
    (txn.run state call).2.held location = state.held location := by
  have kept : ∀ access, access ≠ .read →
      ¬storeObserver.Touches (txn.run · call) state access location :=
    fun _ changes touched => (run_within call _ _ _ touched).elim changes outside
  have written := kept .write nofun
  have erased := kept .delete nofun
  simp only [Observer.Touches, storeObserver] at written erased
  grind [State.held, Renewed, Dropped]

/-- A transaction changes nothing beyond its prefix and its grant, and nothing if it is dropped. -/
theorem finish_held (txn : ScopedStorageTxn) (commits : Bool) (store : State)
    (calls : List TxnCall) (location : VirtualPath) :
    (txn.finish commits store calls).held location = store.held location ∨
      commits = true ∧ txn.Governs location := by
  cases commits with
  | false => exact .inl rfl
  | true =>
    refine or_iff_not_imp_right.mpr fun outside => ?_
    change (txn.runAll store calls).held location = _
    induction calls generalizing store with
    | nil => rfl
    | cons call _ ih => exact (ih _).trans (run_held (outside ⟨rfl, ·⟩) store call)

end ScopedStorageTxn

/-! ## The exact condition -/

section

variable {view : MountView} {mount : MountGrant}

theorem resolve_alias (used : mountBehind view mount [] = some mount) :
    view.resolveWithGrant ⟨mount.mountAlias.path⟩ = .ok (mount.target, mount) := by
  have found : view.mountFor (ScopedPath.mk mount.mountAlias.path).asStr = some mount := by
    rw [mountBehind, List.append_nil] at used
    exact used
  have same : mount.target.append [] (List.forall_mem_nil _) = mount.target :=
    ext (NormalizedPath.ext (List.append_nil _))
  rw [resolveWithGrant_of_mountFor found (List.append_nil _).symm (List.forall_mem_nil _), same]

variable {root : Backend}

theorem resolve_alias_permitted (used : mountBehind view mount [] = some mount)
    (allows : operationAllowed mount.permissions operation = true) :
    resolveWithPermissionView view ⟨mount.mountAlias.path⟩ operation = .ok mount.target := by
  rw [resolveWithPermissionView, resolve_alias used]
  exact if_pos allows

theorem permitted_alias {scope : ResourceScope} (used : mountBehind view mount [] = some mount)
    (allows : operationAllowed mount.permissions operation = true)
    (call : VirtualPath → State → Except FilesystemError α × State) (state : State) :
    (withFixedView root view).permitted scope ⟨mount.mountAlias.path⟩ operation
      call state = call mount.target state := by
  rw [permitted_eq, resolve_alias_permitted used allows]

theorem begin_alias {rules : UnicodeRules} {scope : ResourceScope}
    (used : mountBehind view mount [] = some mount) (writes : mount.permissions.write = true) :
    (withFixedView ⟨rules, .multiKey⟩ view).begin scope
      ⟨mount.mountAlias.path⟩ = .ok ⟨⟨mount.target⟩, mount.permissions, mount.target⟩ := by
  have allows : operationAllowed mount.permissions .beginTxn = true := writes
  rw [begin_eq, resolve_alias_permitted used allows, resolve_alias used]
  rfl

theorem checked_below {root place : VirtualPath} {permissions : MountPermissions}
    (allows : operationAllowed permissions operation = true)
    (below : root.path.parts <+: place.path.parts)
    (call : State → Except FilesystemError α × State) (state : State) :
    (mk ⟨root⟩ permissions root).checked place operation
      ((StorageTxn.mk root).inside place call) state = call state := by
  have inside := pathPrefixMatches_iff.mpr below
  simp only [checked, check, checkPath,
    StorageTxn.inside, StorageTxn.checkPath, allows, inside, if_true]

def anyScope : ResourceScope := ⟨⟨"tenant"⟩, ⟨"user"⟩, none, none, none, none, ⟨0⟩⟩

def storeWith (location : VirtualPath) (body : List UInt8) : State :=
  { State.new with entries := empty.insert location ⟨bytes body, ⟨1⟩⟩ }

theorem storeWith_get (location : VirtualPath) (body : List UInt8) :
    (storeWith location body).entries.get location = some ⟨bytes body, ⟨1⟩⟩ :=
  get_insert_self _ _ _

theorem storeWith_alike (location : VirtualPath) (first second : List UInt8) :
    State.Alike location (storeWith location first) (storeWith location second) where
  entries := by
    intro _ different
    rw [storeWith, storeWith, get_insert_of_ne _ _ different, get_insert_of_ne _ _ different]
  outline := by
    rw [storeWith_get, storeWith_get]
    rfl
  eventLogs := fun _ _ => rfl
  seqs := rfl
  sequences := rfl

theorem storeWith_candidates {root : VirtualPath} (body : List UInt8)
    (below : root.path.parts <+: location.path.parts) :
    (storeWith location body).candidates root = [(location, ⟨bytes body, ⟨1⟩⟩)] := by
  have keys : (storeWith location body).entries.keys = {location} := by
    ext key
    rw [mem_keys, storeWith, get_insert, Finset.mem_singleton]
    split
    next same => simp [same]
    next different => simp [different]
  have inside : location.asStr = root.asStr ∨ isUnder root location = true :=
    (at_or_under_iff.mpr below).imp_left (congrArg asStr)
  rw [State.candidates, keys, Finset.filter_singleton, if_pos inside, Finset.sort_singleton,
    List.filterMap_cons, storeWith_get]
  rfl

theorem read_of_distinct {operation : State → Outcome} {answer : VersionedEntry → Answer}
    (distinct : ∀ first second : VersionedEntry, answer first = answer second → first = second)
    (shows : ∀ body, (operation (storeWith location body)).1 =
      .ok (answer ⟨location, bytes body, ⟨1⟩⟩)) :
    storeObserver.Touches operation (storeWith location []) .read location := by
  refine ⟨storeWith location [0], storeWith_alike location [] [0], fun same => ?_⟩
  rw [shows, shows] at same
  have bodies := congrArg (fun found : VersionedEntry => found.entry.body)
    (distinct _ _ (Except.ok.inj same))
  cases bodies

variable {rules : UnicodeRules} {scope : ResourceScope} {location : VirtualPath}

section

variable (used : mountBehind view mount [] = some mount)
include used

theorem txn_put_touches (writes : mount.permissions.write = true)
    (below : mount.target.path.parts <+: location.path.parts) :
    (ScopedOperation.transaction ⟨mount.mountAlias.path⟩ [.put location (bytes []) .any]).Touches
      (withFixedView ⟨rules, .multiKey⟩ view) scope State.new .write location := by
  refine ⟨_, begin_alias used writes, .inl (.inl ?_)⟩
  have allows : operationAllowed mount.permissions .writeFile = true := writes
  have stored : ((mk ⟨mount.target⟩ mount.permissions mount.target).run
      State.new (.put location (bytes []) .any)).2.entries.get location =
      some ⟨bytes [], ⟨1⟩⟩ := by
    rw [ScopedStorageTxn.run, answered, ScopedStorageTxn.put, StorageTxn.put,
      checked_below allows below]
    exact get_insert_self _ _ _
  rw [stored]
  refine ⟨nofun, ?_⟩
  rw [State.new, get_empty]
  exact nofun

theorem txn_get_touches (reads : mount.permissions.read = true)
    (writes : mount.permissions.write = true)
    (below : mount.target.path.parts <+: location.path.parts) :
    (ScopedOperation.transaction ⟨mount.mountAlias.path⟩ [.get location]).Touches
      (withFixedView ⟨rules, .multiKey⟩ view) scope (storeWith location [])
      .read location := by
  have allows : operationAllowed mount.permissions .readFile = true := reads
  refine ⟨_, begin_alias used writes, .inl ?_⟩
  refine @read_of_distinct _ _ (fun found => .entry (some found)) (fun found other same => ?_)
    fun body => ?_
  · cases same
    rfl
  · rw [ScopedStorageTxn.run, answered, ScopedStorageTxn.get, StorageTxn.get,
      checked_below allows below, State.get, storeWith_get]
    rfl

theorem delete_touches (deletes : mount.permissions.delete = true)
    (below : mount.target.path.parts <+: location.path.parts) :
    (ScopedOperation.direct (.delete ⟨mount.mountAlias.path⟩)).Touches
      (withFixedView root view) scope (storeWith location [])
      .delete location := by
  have allows : operationAllowed mount.permissions .delete = true := deletes
  have gone : ((withFixedView root view).run scope (storeWith location [])
      (.delete ⟨mount.mountAlias.path⟩)).2.entries.get location = none := by
    rw [run, answered, delete, permitted_alias used allows]
    exact delete_gone _ below
  refine .inl ?_
  rw [gone, storeWith_get]
  exact ⟨nofun, rfl⟩

theorem query_touches (reads : mount.permissions.read = true)
    (lists : mount.permissions.list = true)
    (below : mount.target.path.parts <+: location.path.parts) :
    (ScopedOperation.direct (.query ⟨mount.mountAlias.path⟩ .all ⟨0, 1⟩)).Touches
      (withFixedView root view) scope (storeWith location [])
      .read location := by
  have allows : operationAllowed mount.permissions .query = true :=
    (Bool.and_eq_true _ _).mpr ⟨reads, lists⟩
  refine @read_of_distinct _ _ (fun found => .entries [found]) (fun found other same => ?_)
    fun body => ?_
  · cases same
    rfl
  · rw [run, answered, query, permitted_alias used allows,
      State.query, storeWith_candidates body below]
    rfl

end

/-- Whatever a mount in use opens to everything below is accessed by some operation. -/
theorem exists_touching (rules : UnicodeRules) (scope : ResourceScope) {access : Access}
    (used : mountBehind view mount [] = some mount) (swept : sweeps mount.permissions access = true)
    (below : mount.target.path.parts <+: location.path.parts) :
    ∃ (operation : ScopedOperation) (state : State),
      operation.Touches (withFixedView ⟨rules, .multiKey⟩ view) scope state
        access location := by
  cases access with
  | write => exact ⟨_, _, txn_put_touches used swept below⟩
  | delete => exact ⟨_, _, delete_touches used swept below⟩
  | read =>
    obtain ⟨reads, further⟩ := (Bool.and_eq_true _ _).mp swept
    rcases (Bool.or_eq_true _ _).mp further with lists | writes
    · exact ⟨_, _, query_touches used reads lists below⟩
    · exact ⟨_, _, txn_get_touches used reads writes below⟩

/-- Every operation stays within the view exactly if the view seals its nested mounts. -/
theorem operations_confined_iff (view : MountView) :
    (∀ (root : Backend) (scope : ResourceScope) (operation : ScopedOperation) (state : State)
        (access : Access) (location : VirtualPath),
      operation.Touches (withFixedView root view) scope state access location →
        Reaches view location (accessOperation access)) ↔
      SealsNested view := by
  constructor
  · intro confined mount _ used rest isPoint _ access swept
    have wellFormed := breakpoints_wellFormed isPoint
    have below : mount.target.path.parts <+: (mount.target.append rest wellFormed).path.parts :=
      List.prefix_append _ _
    obtain ⟨operation, state, touched⟩ :=
      exists_touching ⟨id, fun _ => false⟩ anyScope used swept below
    exact (@grants_iff_reaches view (mount.target.append rest wellFormed) _).mpr
      (confined _ _ operation state access _ touched)
  · intro sealed root scope operation state access location touched
    cases operation with
    | direct call => exact sealed.run_within call state access location touched
    | transaction _ calls =>
      obtain ⟨_, opened, inSession⟩ := touched
      exact sealed.session_reached opened calls inSession

example : SealsNested readerView ∧ ¬SealsNested workspaceView := by decide

end

/-! ## A workspace with a folder that may not be written -/

def postgresBackend : Backend := ⟨⟨id, fun _ => false⟩, .multiKey⟩

/-- Deleting the workspace deletes the protected folder, and a transaction on the workspace
writes there. -/
theorem broad_mount_touches_nested :
    (ScopedOperation.direct (.delete ⟨workspaceAlias.path⟩)).Touches
        (withFixedView postgresBackend workspaceView) anyScope
        (storeWith vendorRoot []) .delete vendorRoot ∧
      (ScopedOperation.transaction ⟨workspaceAlias.path⟩ [.put vendorRoot (bytes []) .any]).Touches
        (withFixedView postgresBackend workspaceView) anyScope
        State.new .write vendorRoot ∧
      ¬Reaches workspaceView vendorRoot .delete ∧
      ¬Reaches workspaceView vendorRoot .writeFile := by
  have used : mountBehind workspaceView (workspaceMount .readWriteListDelete) [] =
      some (workspaceMount .readWriteListDelete) := by decide
  have below : (workspaceMount .readWriteListDelete).target.path.parts <+:
      vendorRoot.path.parts := by decide
  refine ⟨delete_touches used rfl below, txn_put_touches used rfl below, ?_, ?_⟩
  · rw [← grants_iff_reaches]
    decide
  · rw [← grants_iff_reaches]
    decide

end Ironclaw.Filesystem
