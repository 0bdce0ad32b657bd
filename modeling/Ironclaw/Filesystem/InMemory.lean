import Mathlib.Data.Char
import Mathlib.Data.Finset.Sort
import Ironclaw.Filesystem.Records

/-!
# The reference backend

The in-memory backend keeps entries, event logs and sequence counters by virtual path.
Deletion and queries work on the path and everything below it.  Transactions follow the
Postgres backend: a handle for a prefix whose calls are the backend's own operations.
-/

namespace Ironclaw.Filesystem

open HostApi
open Lib NormalizedPath VirtualPath

structure StoredEntry where
  entry : Entry
  version : RecordVersion

structure State where
  entries : Table VirtualPath StoredEntry
  eventLogs : Table VirtualPath (List EventRecord)
  sequences : Table VirtualPath SeqNo

def State.new : State := ⟨.empty, .empty, .empty⟩

/-! ## Paths below a path -/

def withTrailingSlash (text : Text) : Text :=
  if text.getLast? = some '/' then text else text ++ ['/']

/-- The text of the key starts with the path and a slash. -/
def isUnder (path key : VirtualPath) : Bool := (withTrailingSlash path.asStr).isPrefixOf key.asStr

theorem at_or_under_iff {path key : VirtualPath} :
    key = path ∨ isUnder path key = true ↔ path.path.parts <+: key.path.parts := by
  have slash : withTrailingSlash path.asStr = path.asStr ++ ['/'] := if_neg path.path.getLast_asStr
  rw [← pathMatchesAlias_iff, pathMatchesAlias, Bool.or_eq_true, beq_iff_eq, isUnder, slash]
  refine or_congr_left ⟨fun same => by rw [same], fun same => ?_⟩
  exact ext (asStr_injective same)

/-- `path_prefix_matches`: a prefix by whole components. -/
def pathPrefixMatches (front path : VirtualPath) : Bool :=
  front.path.parts.isPrefixOf path.path.parts

theorem pathPrefixMatches_iff {front path : VirtualPath} :
    pathPrefixMatches front path = true ↔ front.path.parts <+: path.path.parts :=
  List.isPrefixOf_iff_prefix

/-! ## The entry plane -/

namespace State

variable (path : VirtualPath) (state : State)

def hasDescendants : Bool := decide (∃ key ∈ state.entries.keys, isUnder path key = true)

def checkCas : CasExpectation → Option RecordVersion → Except FilesystemError Unit
  | .any, _ => .ok ()
  | .absent, none => .ok ()
  | .absent, some found => .error (.versionMismatch path none (some found))
  | .version expected, found =>
    if found = some expected then .ok ()
    else .error (.versionMismatch path (some expected) found)

def currentVersion : Option RecordVersion := (state.entries.get path).map (·.version)

def nextVersion : RecordVersion := ((state.currentVersion path).map RecordVersion.next).getD ⟨1⟩

def put (entry : Entry) (cas : CasExpectation) : Except FilesystemError RecordVersion × State :=
  if state.hasDescendants path then
    (.error (.backend path .writeFile "cannot overwrite a directory"), state)
  else
    match checkCas path cas (state.currentVersion path) with
    | .error error => (.error error, state)
    | .ok () =>
      (.ok (state.nextVersion path), { state with
          entries := state.entries.insert path ⟨entry, state.nextVersion path⟩ })

def get : Except FilesystemError (Option VersionedEntry) :=
  .ok ((state.entries.get path).map fun stored => ⟨path, stored.entry, stored.version⟩)

/-- The logs and counters at the path and below it are dropped with the entries. -/
def sweep (entries : Table VirtualPath StoredEntry) : State where
  entries := entries.retain fun key => !isUnder path key
  eventLogs := state.eventLogs.retain fun key => key ≠ path && !isUnder path key
  sequences := state.sequences.retain fun key => key ≠ path && !isUnder path key

def delete : Except FilesystemError Unit × State :=
  if (state.entries.get path).isSome then
    (.ok (), state.sweep path (state.entries.remove path))
  else
    let swept := state.sweep path state.entries
    if swept.entries.keys.card = state.entries.keys.card then
      (.error (.notFound path .delete), swept)
    else (.ok (), swept)

def deleteIfVersion (expected : RecordVersion) : Except FilesystemError Unit × State :=
  match state.currentVersion path with
  | none => (.error (.notFound path .delete), state)
  | some current =>
    if expected ≠ current then
      (.error (.versionMismatch path (some expected) (some current)), state)
    else (.ok (), { state with entries := state.entries.remove path })

inductive FileType where
  | file
  | directory

structure FileStat where
  path : VirtualPath
  fileType : FileType
  len : Nat
  sensitive : Bool

def stat : Except FilesystemError FileStat :=
  match state.entries.get path with
  | some stored => .ok ⟨path, .file, stored.entry.body.length, stored.entry.kind.isSome⟩
  | none =>
    if state.hasDescendants path then .ok ⟨path, .directory, 0, false⟩
    else .error (.notFound path .stat)

/-! ## Queries -/

/-- The order of the texts, in which results are returned. -/
instance : LinearOrder VirtualPath :=
  .lift' VirtualPath.asStr fun _ _ same => ext (asStr_injective same)

/-- The stored rows at the path and below it.  The source sorts what is left of them by the
text of the path; keys are distinct, so they may be taken in this order from the start. -/
def candidates : List (VirtualPath × StoredEntry) :=
  (state.entries.keys.filter fun key => key.asStr = path.asStr ∨ isUnder path key = true).sort
    |>.filterMap fun key => (state.entries.get key).map fun stored => (key, stored)

def versioned (row : VirtualPath × StoredEntry) : VersionedEntry :=
  ⟨row.1, row.2.entry, row.2.version⟩

/-- How near the vector under the key is; a row without one is not ranked. -/
def score (key : IndexKey) (embedding : List Float32) (row : VirtualPath × StoredEntry) :
    Option Float32 :=
  match row.2.entry.indexed.get key with
  | some (.bytes bytes) => (decodeEmbeddingBlob bytes).bind (cosineSimilarity embedding)
  | _ => none

/-- The nearer row first, the smaller path among equals. -/
def Nearer (first second : (VirtualPath × StoredEntry) × Float32) : Prop :=
  ((partialCmp second.2 first.2).then (compare first.1.1.asStr second.1.1.asStr)).isLE = true

instance : DecidableRel Nearer := fun _ _ => inferInstanceAs (Decidable (_ = true))

def rank (key : IndexKey) (embedding : List Float32) (rows : List (VirtualPath × StoredEntry)) :
    List (VirtualPath × StoredEntry) :=
  ((rows.filterMap fun row => (score key embedding row).map fun near => (row, near)).insertionSort
    Nearer).map (·.1)

def answerQuery (rules : UnicodeRules) (rows : List (VirtualPath × StoredEntry)) (page : Page) :
    Filter → Except FilesystemError (List VersionedEntry)
  | .vectorNearest key embedding limit => .ok (((rank key embedding rows).take limit).map versioned)
  | filter =>
    if containsNestedVectorNearest filter then .error (.unsupported path .query)
    else
      let matched := rows.filter fun row => filterMatches rules row.2.entry.indexed filter
      if matched.length ≤ page.offset then .ok []
      else .ok (((matched.drop page.offset).take page.limit).map versioned)

def query (rules : UnicodeRules) (filter : Filter) (page : Page) :
    Except FilesystemError (List VersionedEntry) :=
  answerQuery path rules (state.candidates path) page filter

/-! ## The event plane -/

def logAt : List EventRecord := (state.eventLogs.get path).getD []

def nextSeq (log : List EventRecord) : SeqNo := (log.getLast?.map (·.seq.next)).getD SeqNo.zero.next

/-- The loop of `append_batch`: the log with the payloads behind it, and their numbers. -/
def appendAll (log : List EventRecord) : List (List UInt8) → List SeqNo × List EventRecord
  | [] => ([], log)
  | payload :: rest =>
    let (seqs, grown) := appendAll (log ++ [⟨nextSeq log, payload⟩]) rest
    (nextSeq log :: seqs, grown)

def append (payload : List UInt8) : Except FilesystemError SeqNo × State :=
  let log := state.logAt path
  (.ok (nextSeq log),
    { state with eventLogs := state.eventLogs.insert path (log ++ [⟨nextSeq log, payload⟩]) })

def appendBatch (payloads : List (List UInt8)) : Except FilesystemError (List SeqNo) × State :=
  let (seqs, grown) := appendAll (state.logAt path) payloads
  (.ok seqs, { state with eventLogs := state.eventLogs.insert path grown })

variable (start : SeqNo)

def tail : Except FilesystemError (List EventRecord) :=
  .ok ((state.logAt path).filter fun record => start.value < record.seq.value)

def tailBounded (maxRecords : Nat) : Except FilesystemError (List EventRecord) :=
  .ok (((state.logAt path).filter fun record => start.value < record.seq.value).take maxRecords)

/-- The default: the greatest number of the tail. -/
def headSeq : Except FilesystemError (Option SeqNo) :=
  (state.tail path start).map fun records => (records.map (·.seq.value)).max?.map SeqNo.mk

def reserveSequence : Except FilesystemError SeqNo × State :=
  let reserved := (state.sequences.get path).getD SeqNo.zero.next
  (.ok reserved, { state with sequences := state.sequences.insert path reserved.next })

/-! ## The bytes plane -/

def readFile : Except FilesystemError (List UInt8) :=
  match state.get path with
  | .error error => .error error
  | .ok (some found) => .ok found.entry.body
  | .ok none => .error (.notFound path .readFile)

def readFileBounded (maxBytes : Nat) : Except FilesystemError (Option (List UInt8)) :=
  match state.stat path with
  | .error error => .error error
  | .ok stat =>
    if maxBytes < stat.len then .ok none
    else
      match state.get path with
      | .error error => .error error
      | .ok none => .error (.notFound path .readFile)
      | .ok (some found) =>
        if maxBytes < found.entry.body.length then .ok none else .ok (some found.entry.body)

def writeFile (bytes : List UInt8) : Except FilesystemError Unit × State :=
  let (result, after) := state.put path (Entry.bytes bytes) .any
  (result.map fun _ => (), after)

def appendFile (bytes : List UInt8) : Except FilesystemError Unit × State :=
  let entry := ((state.entries.get path).map (·.entry)).getD (Entry.bytes [])
  if entry.kind.isSome then
    (.error (.backend path .appendFile "cannot append bytes to a record-shaped entry"), state)
  else
    (.ok (), { state with
        entries := state.entries.insert path
          ⟨{ entry with body := entry.body ++ bytes }, state.nextVersion path⟩ })

end State

/-! ## Transactions -/

inductive TxnCapability where
  | none
  | cas
  | multiKey
  deriving DecidableEq

/-- What tells one backend from another here: whether it opens transactions. -/
structure Backend where
  rules : UnicodeRules
  txn : TxnCapability

structure StorageTxn where
  root : VirtualPath

def Backend.begin (backend : Backend) (path : VirtualPath) : Except FilesystemError StorageTxn :=
  if backend.txn = .multiKey then .ok ⟨path⟩ else .error (.unsupported path .beginTxn)

namespace StorageTxn

variable (txn : StorageTxn) (path : VirtualPath)

def checkPath : Except FilesystemError Unit :=
  if pathPrefixMatches txn.root path then .ok () else .error (.pathOutsideMount path)

/-- A call of the transaction, refused outside its prefix. -/
def inside {α : Type} (call : State → Except FilesystemError α × State) (state : State) :
    Except FilesystemError α × State :=
  match txn.checkPath path with
  | .error error => (.error error, state)
  | .ok () => call state

def put (entry : Entry)
    (cas : CasExpectation) : State → Except FilesystemError RecordVersion × State :=
  txn.inside path fun state => state.put path entry cas

def get : State → Except FilesystemError (Option VersionedEntry) × State :=
  txn.inside path fun state => (state.get path, state)

def delete : State → Except FilesystemError Unit × State :=
  txn.inside path fun state => state.delete path

def reserveSequence : State → Except FilesystemError SeqNo × State :=
  txn.inside path fun state => state.reserveSequence path

end StorageTxn

end Ironclaw.Filesystem
