import Ironclaw.Filesystem.InMemory
import Ironclaw.HostApi.Encoding

/-!
# Durable event streams over a filesystem

Runtime events and audit records are appended to one log per stream.  The log of a stream is
found by a path made of the kind, the tenant, the user and the agent of the stream; a read
filters the records it scans by project, mission, thread and process, and trusts the path
for the rest.
-/

namespace Ironclaw.Events

open HostApi Lib Filesystem ScopedPath

/-! ## Streams and filters -/

structure ProcessId where
  uuid : Nat
  deriving DecidableEq

structure EventCursor where
  value : Nat

def EventCursor.origin : EventCursor := ⟨0⟩

structure EventStreamKey where
  tenantId : TenantId
  userId : UserId
  agentId : Option AgentId
  deriving DecidableEq

def EventStreamKey.fromScope (scope : ResourceScope) : EventStreamKey :=
  ⟨scope.tenantId, scope.userId, scope.agentId⟩

/-- A runtime event, with the fields a stream or a filter looks at. -/
structure RuntimeEvent where
  eventId : Nat
  scope : ResourceScope
  processId : Option ProcessId
  deriving DecidableEq

/-- An audit record, with the fields a stream or a filter looks at. -/
structure AuditEnvelope where
  eventId : Nat
  tenantId : TenantId
  userId : UserId
  agentId : Option AgentId
  projectId : Option ProjectId
  missionId : Option MissionId
  threadId : Option ThreadId
  processId : Option ProcessId

structure ReadScope where
  projectId : Option ProjectId
  missionId : Option MissionId
  threadId : Option ThreadId
  processId : Option ProcessId

def matchesOptional {α : Type} [DecidableEq α] (want found : Option α) : Bool :=
  match want with
  | none => true
  | some _ => decide (found = want)

namespace ReadScope

def any : ReadScope := ⟨none, none, none, none⟩

def matchesEvent (filter : ReadScope) (event : RuntimeEvent) : Bool :=
  matchesOptional filter.projectId event.scope.projectId &&
    matchesOptional filter.missionId event.scope.missionId &&
    matchesOptional filter.threadId event.scope.threadId &&
    matchesOptional filter.processId event.processId

def matchesAudit (filter : ReadScope) (record : AuditEnvelope) : Bool :=
  matchesOptional filter.projectId record.projectId &&
    matchesOptional filter.missionId record.missionId &&
    matchesOptional filter.threadId record.threadId &&
    matchesOptional filter.processId record.processId

end ReadScope

inductive EventError where
  | serialize (reason : String)
  | sink (reason : String)
  | durableLog (reason : String)
  | replayGap (requested earliest : EventCursor)
  | invalidReplayRequest (reason : String)

/-! ## Paths -/

inductive StreamKind where
  | runtime
  | audit
  deriving DecidableEq

def StreamKind.segment : StreamKind → String
  | .runtime => "runtime"
  | .audit => "audit"

def agentSegment (agentId : Option AgentId) : String := (agentId.map (·.value)).getD "_none"

def streamPath (kind : StreamKind) (stream : EventStreamKey) : Except EventError ScopedPath :=
  match new ("/events/".toList ++ kind.segment.toList ++ '/' ::
      (stream.tenantId.value.toList ++ '/' :: (stream.userId.value.toList ++ '/' ::
        (agentSegment stream.agentId).toList))) with
  | .ok path => .ok path
  | .error _ => .error (.durableLog "filesystem event store stream path is invalid")

/-- Every identifier of the stream passes the check of scope identifiers. -/
structure EventStreamKey.Valid (stream : EventStreamKey) : Prop where
  tenant : validateScopeId stream.tenantId.value = true
  user : validateScopeId stream.userId.value = true
  agent : ∀ id ∈ stream.agentId, validateScopeId id.value = true

/-- The agent of the stream is not called what an absent agent is written as. -/
def EventStreamKey.NamesAgent (stream : EventStreamKey) : Prop := stream.agentId ≠ some ⟨"_none"⟩

theorem isPart_agentSegment {agentId : Option AgentId}
    (valid : ∀ id ∈ agentId, validateScopeId id.value = true) :
    IsPart (agentSegment agentId).toList := by
  cases agentId with
  | none => decide
  | some id => exact isPart_of_validateScopeId (valid id rfl)

theorem streamPath_parts (kind : StreamKind) {stream : EventStreamKey} (valid : stream.Valid) :
    ∃ path, streamPath kind stream = .ok path ∧
      path.path.parts = ["events".toList, kind.segment.toList, stream.tenantId.value.toList,
        stream.userId.value.toList, (agentSegment stream.agentId).toList] := by
  obtain ⟨tenantValid, userValid, agentValid⟩ := valid
  have kindPart : IsPart kind.segment.toList := by cases kind <;> decide
  let path : NormalizedPath :=
    { parts := ["events".toList, kind.segment.toList, stream.tenantId.value.toList,
        stream.userId.value.toList, (agentSegment stream.agentId).toList]
      nonempty := List.cons_ne_nil _ _
      wellFormed := by
        intro _ listed
        simp only [List.mem_cons, List.not_mem_nil, or_false] at listed
        rcases listed with rfl | rfl | rfl | rfl | rfl
        · decide
        · exact kindPart
        · exact isPart_of_validateScopeId tenantValid
        · exact isPart_of_validateScopeId userValid
        · exact isPart_agentSegment agentValid }
  have read : new path.asStr = .ok ⟨path⟩ := new_asStr rfl rfl
  have text : path.asStr = "/events/".toList ++ kind.segment.toList ++ '/' ::
      (stream.tenantId.value.toList ++ '/' :: (stream.userId.value.toList ++ '/' ::
        (agentSegment stream.agentId).toList)) := by
    simp [path, NormalizedPath.asStr]
  refine ⟨⟨path⟩, ?_, rfl⟩
  rw [streamPath, ← text, read]

theorem agentSegment_injective {first second : Option AgentId}
    (firstNames : first ≠ some ⟨"_none"⟩) (secondNames : second ≠ some ⟨"_none"⟩)
    (same : agentSegment first = agentSegment second) : first = second := by
  cases first with
  | none =>
    cases second with
    | none => rfl
    | some => exact absurd (congrArg (fun name => some (AgentId.mk name)) same.symm) secondNames
  | some =>
    cases second with
    | none => exact absurd (congrArg (fun name => some (AgentId.mk name)) same) firstNames
    | some => exact congrArg (fun name => some (AgentId.mk name)) same

/-- Streams whose agents are not called `_none` share no path. -/
theorem streamPath_injective {firstKind secondKind : StreamKind} {first second : EventStreamKey}
    (firstValid : first.Valid) (secondValid : second.Valid) (firstNames : first.NamesAgent)
    (secondNames : second.NamesAgent) {path : ScopedPath}
    (firstPath : streamPath firstKind first = .ok path)
    (secondPath : streamPath secondKind second = .ok path) :
    firstKind = secondKind ∧ first = second := by
  obtain ⟨_, read, parts⟩ := streamPath_parts firstKind firstValid
  obtain ⟨_, otherRead, otherParts⟩ := streamPath_parts secondKind secondValid
  rw [firstPath] at read
  rw [secondPath] at otherRead
  cases read
  cases otherRead
  rw [parts] at otherParts
  simp only [List.cons.injEq, true_and, and_true, String.toList_inj] at otherParts
  obtain ⟨kinds, tenants, users, agents⟩ := otherParts
  obtain ⟨⟨_⟩, ⟨_⟩, _⟩ := first
  obtain ⟨⟨_⟩, ⟨_⟩, _⟩ := second
  cases tenants
  cases users
  refine ⟨?_, ?_⟩
  · cases firstKind <;> cases secondKind <;> first | rfl | exact absurd kinds (by decide)
  · exact congrArg (EventStreamKey.mk _ _) (agentSegment_injective firstNames secondNames agents)

/-! ## Logs -/

/-- The event plane of the mounted filesystem: one log for every scoped path. -/
structure EventPlane where
  logs : Table ScopedPath (List EventRecord)

namespace EventPlane

def empty : EventPlane := ⟨.empty⟩

variable (plane : EventPlane) (path : ScopedPath)

def logAt : List EventRecord :=
  (plane.logs.get path).getD []

def appendBatch (payloads : List (List UInt8)) : List SeqNo × EventPlane :=
  let (seqs, grown) := State.appendAll (plane.logAt path) payloads
  (seqs, ⟨plane.logs.insert path grown⟩)

def tailBounded (start maxRecords : Nat) : List EventRecord :=
  ((plane.logAt path).filter fun record => start < record.seq.value).take maxRecords

end EventPlane

/-- How records are written as JSON and read back.  What is read from a written record is
the record. -/
structure JsonCodec (α : Type) where
  toVec : α → Except String (List UInt8)
  fromSlice : List UInt8 → Except String α
  reads : ∀ record payload found, toVec record = .ok payload → fromSlice payload = .ok found →
    found = record

/-- What sets the log of one kind of record apart. -/
structure LogFormat (α : Type) extends JsonCodec α where
  kind : StreamKind
  stream : α → EventStreamKey
  accepts : ReadScope → α → Bool

def runtimeFormat (json : JsonCodec RuntimeEvent) : LogFormat RuntimeEvent where
  toJsonCodec := json
  kind := .runtime
  stream event := .fromScope event.scope
  accepts := ReadScope.matchesEvent

def auditFormat (json : JsonCodec AuditEnvelope) : LogFormat AuditEnvelope where
  toJsonCodec := json
  kind := .audit
  stream record := ⟨record.tenantId, record.userId, record.agentId⟩
  accepts := ReadScope.matchesAudit

structure EventLogEntry (α : Type) where
  cursor : EventCursor
  record : α

/-! ## Appending -/

section

variable {α : Type} (format : LogFormat α)

/-- `append`; the backend itself does not fail here. -/
def append (record : α) (plane : EventPlane) : Except EventError (EventLogEntry α) × EventPlane :=
  match streamPath format.kind (format.stream record) with
  | .error error => (.error error, plane)
  | .ok path =>
    match format.toVec record with
    | .error reason => (.error (.serialize reason), plane)
    | .ok payload =>
      let seq := State.nextSeq (plane.logAt path)
      (.ok ⟨⟨seq.value⟩, record⟩, (plane.appendBatch path [payload]).2)

/-- The records of a batch that share a path, with their places in the batch. -/
abbrev Group (α : Type) : Type := ScopedPath × List (Nat × α)

def addToGroup (path : ScopedPath) (item : Nat × α) : List (Group α) → List (Group α)
  | [] => [(path, [item])]
  | (other, items) :: rest =>
    if other = path then (other, items ++ [item]) :: rest
    else (other, items) :: addToGroup path item rest

/-- Results by the place of the record in the batch. -/
abbrev BatchResults (α : Type) : Type := List (Nat × Except EventError (EventLogEntry α))

/-- The groups of a batch in the order of their first records; a record without path has its
result at once. -/
def groupBatch (items : List (Nat × α)) : BatchResults α × List (Group α) :=
  items.foldl (fun (results, groups) item =>
    match streamPath format.kind (format.stream item.2) with
    | .ok path => (results, addToGroup path item groups)
    | .error error => (results ++ [(item.1, .error error)], groups)) ([], [])

def appendGroup (group : Group α) (plane : EventPlane) : BatchResults α × EventPlane :=
  let refused : BatchResults α := group.2.filterMap fun item =>
    match format.toVec item.2 with
    | .ok _ => none
    | .error reason => some (item.1, .error (.serialize reason))
  let kept := group.2.filterMap fun item =>
    (format.toVec item.2).toOption.map fun payload => (item, payload)
  let (seqs, grown) := plane.appendBatch group.1 (kept.map (·.2))
  (refused ++ kept.zipWith (fun row seq => (row.1.1, .ok ⟨⟨seq.value⟩, row.1.2⟩)) seqs, grown)

def appendBatch (records : List α) (plane : EventPlane) :
    List (Except EventError (EventLogEntry α)) × EventPlane :=
  let (unplaced, groups) := groupBatch format (records.zipIdx.map fun row => (row.2, row.1))
  let (results, grown) := groups.foldl (fun (results, plane) group =>
    let (more, grown) := appendGroup format group plane
    (results ++ more, grown)) (unplaced, plane)
  ((List.range records.length).map fun slot =>
      ((results.find? fun row => row.1 = slot).map (·.2)).getD
        (.error (.durableLog "filesystem event store batch produced no result")), grown)

end

/-! ## Reading -/

structure ReadRequest where
  stream : EventStreamKey
  filter : ReadScope
  after : EventCursor
  limit : Nat

structure EventReplay (α : Type) where
  entries : List (EventLogEntry α)
  nextCursor : EventCursor

structure Scan (α : Type) where
  entries : List (EventLogEntry α)
  lastScanned : EventCursor

/-- The next page of `read_after_cursor`, or its result. -/
inductive Reader (α : Type) where
  | idle
  | scanning (request : ReadRequest) (path : ScopedPath) (firstScan : Bool) (scan : Scan α)
  | probing (request : ReadRequest) (path : ScopedPath)
  | returned (request : ReadRequest) (result : Except EventError (EventReplay α))

def eventTailScanPageMin : Nat := 64

def tailScanPageLimit (remainingMatches : Nat) : Nat := max remainingMatches eventTailScanPageMin

section

variable {α : Type} (format : LogFormat α)

/-- The records of a page up to the limit; a record that cannot be read ends the read. -/
def scanRecords (request : ReadRequest) : List EventRecord → Scan α → Except EventError (Scan α)
  | [], scan => .ok scan
  | record :: rest, scan =>
    match format.fromSlice record.payload with
    | .error reason => .error (.serialize reason)
    | .ok event =>
      let cursor : EventCursor := ⟨record.seq.value⟩
      if format.accepts request.filter event then
        let entries := scan.entries ++ [⟨cursor, event⟩]
        if entries.length ≥ request.limit then .ok ⟨entries, cursor⟩
        else scanRecords request rest ⟨entries, cursor⟩
      else scanRecords request rest ⟨scan.entries, cursor⟩

/-- The resume cursor moves past trailing records the filter dropped. -/
def Scan.replay (scan : Scan α) : EventReplay α where
  entries := scan.entries
  nextCursor :=
    match scan.entries.getLast? with
    | some entry =>
      if scan.lastScanned.value > entry.cursor.value then scan.lastScanned else entry.cursor
    | none => scan.lastScanned

namespace Reader

def start (request : ReadRequest) : Reader α :=
  if request.limit = 0 then
    .returned request (.error (.invalidReplayRequest "limit must be greater than zero"))
  else
    match streamPath format.kind request.stream with
    | .error error => .returned request (.error error)
    | .ok path => .scanning request path true ⟨[], request.after⟩

def run (plane : EventPlane) : Reader α → Reader α
  | .scanning request path firstScan scan =>
    let pageLimit := tailScanPageLimit (request.limit - scan.entries.length)
    let records := plane.tailBounded path scan.lastScanned.value pageLimit
    if records = [] then
      if firstScan ∧ request.after.value > 0 then .probing request path
      else .returned request (.ok scan.replay)
    else
      match scanRecords format request records scan with
      | .error error => .returned request (.error error)
      | .ok scanned =>
        if scanned.entries.length ≥ request.limit ∨ records.length < pageLimit then
          .returned request (.ok scanned.replay)
        else .scanning request path false scanned
  | .probing request path =>
    if plane.tailBounded path (request.after.value - 1) 1 = [] then
      .returned request (.error (.replayGap request.after .origin))
    else .returned request (.ok ⟨[], request.after⟩)
  | reader => reader

end Reader

end

end Ironclaw.Events
