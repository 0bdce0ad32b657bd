import Ironclaw.Filesystem.InMemory
import Ironclaw.HostApi.Scope

/-!
# The scoped filesystem

Every operation resolves its scoped path through the mount view of the caller and checks
the permissions of the grant before the backend is asked.  A transaction checks its calls
against the grant of the prefix it was opened for.
-/

namespace Ironclaw.Filesystem

open HostApi

structure ScopedFilesystem where
  root : Backend
  resolver : ResourceScope → Except HostApiError MountView

def resolveWithPermissionView (view : MountView) (path : ScopedPath)
    (operation : FilesystemOperation) : Except FilesystemError VirtualPath :=
  match view.resolveWithGrant path with
  | .error error => .error (.contract error)
  | .ok (virtual, grant) =>
    if operationAllowed grant.permissions operation then .ok virtual
    else .error (.permissionDenied path operation)

namespace ScopedFilesystem

def withFixedView (root : Backend) (view : MountView) : ScopedFilesystem :=
  ⟨root, fun _ => .ok view⟩

variable (filesystem : ScopedFilesystem) (scope : ResourceScope) (path : ScopedPath)

def mountView : Except FilesystemError MountView :=
  (filesystem.resolver scope).mapError FilesystemError.contract

def resolveWithPermission (operation : FilesystemOperation) : Except FilesystemError VirtualPath :=
  match filesystem.mountView scope with
  | .error error => .error error
  | .ok view => resolveWithPermissionView view path operation

/-- A backend call at the path, made if the grant permits the operation. -/
def permitted {α : Type} (operation : FilesystemOperation)
    (call : VirtualPath → State → Except FilesystemError α × State) (state : State) :
    Except FilesystemError α × State :=
  match filesystem.resolveWithPermission scope path operation with
  | .error error => (.error error, state)
  | .ok virtual => call virtual state

def put (entry : Entry) (cas : CasExpectation) :
    State → Except FilesystemError RecordVersion × State :=
  filesystem.permitted scope path .writeFile fun virtual state => state.put virtual entry cas

def get : State → Except FilesystemError (Option VersionedEntry) × State :=
  filesystem.permitted scope path .readFile fun virtual state => (state.get virtual, state)

def query (filter : Filter) (page : Page) :
    State → Except FilesystemError (List VersionedEntry) × State :=
  filesystem.permitted scope path .query fun virtual state =>
    (state.query virtual filesystem.root.rules filter page, state)

def append (payload : List UInt8) : State → Except FilesystemError SeqNo × State :=
  filesystem.permitted scope path .append fun virtual state => state.append virtual payload

def appendBatch (payloads : List (List UInt8)) :
    State → Except FilesystemError (List SeqNo) × State :=
  filesystem.permitted scope path .append fun virtual state => state.appendBatch virtual payloads

variable (start : SeqNo)

def tail : State → Except FilesystemError (List EventRecord) × State :=
  filesystem.permitted scope path .tail fun virtual state => (state.tail virtual start, state)

def tailBounded (maxRecords : Nat) : State → Except FilesystemError (List EventRecord) × State :=
  filesystem.permitted scope path .tail fun virtual state =>
    (state.tailBounded virtual start maxRecords, state)

def headSeq : State → Except FilesystemError (Option SeqNo) × State :=
  filesystem.permitted scope path .headSeq fun virtual state => (state.headSeq virtual start, state)

def reserveSequence : State → Except FilesystemError SeqNo × State :=
  filesystem.permitted scope path .reserveSeq fun virtual state => state.reserveSequence virtual

def readFile : State → Except FilesystemError (List UInt8) × State :=
  filesystem.permitted scope path .readFile fun virtual state => (state.readFile virtual, state)

def writeFile (bytes : List UInt8) : State → Except FilesystemError Unit × State :=
  filesystem.permitted scope path .writeFile fun virtual state => state.writeFile virtual bytes

def appendFile (bytes : List UInt8) : State → Except FilesystemError Unit × State :=
  filesystem.permitted scope path .appendFile fun virtual state => state.appendFile virtual bytes

def delete : State → Except FilesystemError Unit × State :=
  filesystem.permitted scope path .delete fun virtual state => state.delete virtual

def deleteIfVersion (expected : RecordVersion) : State → Except FilesystemError Unit × State :=
  filesystem.permitted scope path .delete fun virtual state =>
    state.deleteIfVersion virtual expected

/-- A missing entry is resolved once more, for the virtual path of the error. -/
def readBytes (state : State) : Except FilesystemError (List UInt8) × State :=
  match filesystem.get scope path state with
  | (.error error, after) => (.error error, after)
  | (.ok (some found), after) => (.ok found.entry.body, after)
  | (.ok none, after) =>
    match filesystem.resolveWithPermission scope path .readFile with
    | .error error => (.error error, after)
    | .ok virtual => (.error (.notFound virtual .readFile), after)

def readBytesBounded (maxBytes : Nat) :
    State → Except FilesystemError (Option (List UInt8)) × State :=
  filesystem.permitted scope path .readFile fun virtual state =>
    (state.readFileBounded virtual maxBytes, state)

def writeBytes (body : List UInt8) (state : State) : Except FilesystemError Unit × State :=
  let (result, after) := filesystem.put scope path (Entry.bytes body) .any state
  (result.map fun _ => (), after)

end ScopedFilesystem

/-! ## Transactions -/

structure ScopedStorageTxn where
  inner : StorageTxn
  permissions : MountPermissions
  mountPrefix : VirtualPath

def ScopedFilesystem.begin (filesystem : ScopedFilesystem) (scope : ResourceScope)
    (path : ScopedPath) : Except FilesystemError ScopedStorageTxn :=
  match filesystem.mountView scope with
  | .error error => .error error
  | .ok view =>
    match resolveWithPermissionView view path .beginTxn with
    | .error error => .error error
    | .ok virtual =>
      match filesystem.root.begin virtual with
      | .error error => .error error
      | .ok inner =>
        match view.resolveWithGrant path with
        | .error error => .error (.contract error)
        | .ok (_, grant) => .ok ⟨inner, grant.permissions, virtual⟩

namespace ScopedStorageTxn

variable (txn : ScopedStorageTxn) (path : VirtualPath)

def check (operation : FilesystemOperation) : Except FilesystemError Unit :=
  if operationAllowed txn.permissions operation then .ok ()
  else .error (.backend txn.mountPrefix operation
    "scoped transaction lacks the required permission")

def checkPath : Except FilesystemError Unit :=
  if pathPrefixMatches txn.mountPrefix path then .ok () else .error (.pathOutsideMount path)

/-- A call of the inner transaction, made if the operation and the path pass the checks. -/
def checked {α : Type} (operation : FilesystemOperation)
    (call : State → Except FilesystemError α × State) (state : State) :
    Except FilesystemError α × State :=
  match txn.check operation with
  | .error error => (.error error, state)
  | .ok () =>
    match txn.checkPath path with
    | .error error => (.error error, state)
    | .ok () => call state

def put (entry : Entry) (cas : CasExpectation) :
    State → Except FilesystemError RecordVersion × State :=
  txn.checked path .writeFile (txn.inner.put path entry cas)

def get : State → Except FilesystemError (Option VersionedEntry) × State :=
  txn.checked path .readFile (txn.inner.get path)

def delete : State → Except FilesystemError Unit × State :=
  txn.checked path .delete (txn.inner.delete path)

def reserveSequence : State → Except FilesystemError SeqNo × State :=
  txn.checked path .reserveSeq (txn.inner.reserveSequence path)

end ScopedStorageTxn

/-! ## Operations and sessions -/

inductive Answer where
  | version (version : RecordVersion)
  | entry (found : Option VersionedEntry)
  | entries (found : List VersionedEntry)
  | seq (seq : SeqNo)
  | seqs (seqs : List SeqNo)
  | records (records : List EventRecord)
  | head (seq : Option SeqNo)
  | bytes (bytes : List UInt8)
  | boundedBytes (bytes : Option (List UInt8))
  | done

abbrev Outcome := Except FilesystemError Answer × State

def answered {α : Type} (wrap : α → Answer) (outcome : Except FilesystemError α × State) :
    Outcome :=
  (outcome.1.map wrap, outcome.2)

/-- The operations that read, write or delete at a scoped path or below it. -/
inductive ScopedCall where
  | put (path : ScopedPath) (entry : Entry) (cas : CasExpectation)
  | get (path : ScopedPath)
  | query (path : ScopedPath) (filter : Filter) (page : Page)
  | append (path : ScopedPath) (payload : List UInt8)
  | appendBatch (path : ScopedPath) (payloads : List (List UInt8))
  | tail (path : ScopedPath) (start : SeqNo)
  | tailBounded (path : ScopedPath) (start : SeqNo) (maxRecords : Nat)
  | headSeq (path : ScopedPath) (start : SeqNo)
  | reserveSequence (path : ScopedPath)
  | readFile (path : ScopedPath)
  | writeFile (path : ScopedPath) (bytes : List UInt8)
  | appendFile (path : ScopedPath) (bytes : List UInt8)
  | delete (path : ScopedPath)
  | deleteIfVersion (path : ScopedPath) (expected : RecordVersion)
  | readBytes (path : ScopedPath)
  | readBytesBounded (path : ScopedPath) (maxBytes : Nat)
  | writeBytes (path : ScopedPath) (body : List UInt8)

def ScopedFilesystem.run (filesystem : ScopedFilesystem) (scope : ResourceScope) (state : State) :
    ScopedCall → Outcome
  | .put path entry cas => answered .version (filesystem.put scope path entry cas state)
  | .get path => answered .entry (filesystem.get scope path state)
  | .query path filter page => answered .entries (filesystem.query scope path filter page state)
  | .append path payload => answered .seq (filesystem.append scope path payload state)
  | .appendBatch path payloads => answered .seqs (filesystem.appendBatch scope path payloads state)
  | .tail path start => answered .records (filesystem.tail scope path start state)
  | .tailBounded path start maxRecords =>
    answered .records (filesystem.tailBounded scope path start maxRecords state)
  | .headSeq path start => answered .head (filesystem.headSeq scope path start state)
  | .reserveSequence path => answered .seq (filesystem.reserveSequence scope path state)
  | .readFile path => answered .bytes (filesystem.readFile scope path state)
  | .writeFile path bytes => answered (fun _ => .done) (filesystem.writeFile scope path bytes state)
  | .appendFile path bytes =>
    answered (fun _ => .done) (filesystem.appendFile scope path bytes state)
  | .delete path => answered (fun _ => .done) (filesystem.delete scope path state)
  | .deleteIfVersion path expected =>
    answered (fun _ => .done) (filesystem.deleteIfVersion scope path expected state)
  | .readBytes path => answered .bytes (filesystem.readBytes scope path state)
  | .readBytesBounded path maxBytes =>
    answered .boundedBytes (filesystem.readBytesBounded scope path maxBytes state)
  | .writeBytes path body => answered (fun _ => .done) (filesystem.writeBytes scope path body state)

/-- The calls of an open transaction; they name virtual paths. -/
inductive TxnCall where
  | put (path : VirtualPath) (entry : Entry) (cas : CasExpectation)
  | get (path : VirtualPath)
  | delete (path : VirtualPath)
  | reserveSequence (path : VirtualPath)

def ScopedStorageTxn.run (txn : ScopedStorageTxn) (state : State) : TxnCall → Outcome
  | .put path entry cas => answered .version (txn.put path entry cas state)
  | .get path => answered .entry (txn.get path state)
  | .delete path => answered (fun _ => .done) (txn.delete path state)
  | .reserveSequence path => answered .seq (txn.reserveSequence path state)

/-- The calls of a transaction one after another, on the state the transaction works on. -/
def ScopedStorageTxn.runAll (txn : ScopedStorageTxn) (state : State) : List TxnCall → State
  | [] => state
  | call :: rest => txn.runAll (txn.run state call).2 rest

/-- What a transaction leaves in the store: all of its work or none of it. -/
def ScopedStorageTxn.finish (txn : ScopedStorageTxn) (commits : Bool) (store : State)
    (calls : List TxnCall) : State :=
  if commits then txn.runAll store calls else store

end Ironclaw.Filesystem
