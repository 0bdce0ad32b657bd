import Ironclaw.Events.Streams
import Ironclaw.Lib.System

/-!
# Isolation of event streams

Appends and reads of both logs interleave freely, each page of a read a step of its own.  As
long as no agent is called `_none`, a read returns only records of the stream it was asked
for: every log holds the records of one stream, because the path says which.
-/

namespace Ironclaw.Events

open HostApi Lib Filesystem Function EventStreamKey StreamKind Reader
open List

/-! ## Runs -/

structure EventState (ι : Type) where
  plane : EventPlane
  runtimeReaders : ι → Reader RuntimeEvent
  auditReaders : ι → Reader AuditEnvelope

inductive EventLabel (ι : Type) where
  | append (event : RuntimeEvent)
  | appendBatch (events : List RuntimeEvent)
  | appendAudit (record : AuditEnvelope)
  | read (reader : ι) (request : ReadRequest)
  | readAudit (reader : ι) (request : ReadRequest)
  /-- The next page of a read. -/
  | page (reader : ι)
  | auditPage (reader : ι)

def EventLabel.streams {ι : Type} : EventLabel ι → List EventStreamKey
  | .append event => [.fromScope event.scope]
  | .appendBatch events => events.map fun event => .fromScope event.scope
  | .appendAudit record => [⟨record.tenantId, record.userId, record.agentId⟩]
  | .read _ request | .readAudit _ request => [request.stream]
  | .page _ | .auditPage _ => []

section

variable {ι : Type} [DecidableEq ι] (runtime : LogFormat RuntimeEvent)
  (audit : LogFormat AuditEnvelope)

def EventState.apply (state : EventState ι) : EventLabel ι → EventState ι
  | .append event => { state with plane := (append runtime event state.plane).2 }
  | .appendBatch events => { state with plane := (appendBatch runtime events state.plane).2 }
  | .appendAudit record => { state with plane := (append audit record state.plane).2 }
  | .read reader request =>
    { state with
      runtimeReaders := update state.runtimeReaders reader (.start runtime request) }
  | .readAudit reader request =>
    { state with
      auditReaders := update state.auditReaders reader (.start audit request) }
  | .page reader =>
    { state with
      runtimeReaders := update state.runtimeReaders reader
        ((state.runtimeReaders reader).run runtime state.plane) }
  | .auditPage reader =>
    { state with
      auditReaders := update state.auditReaders reader
        ((state.auditReaders reader).run audit state.plane) }

end

/-- Both logs over one filesystem that holds no events yet. -/
def eventRuns (ι : Type) [DecidableEq ι] (runtimeJson : JsonCodec RuntimeEvent)
    (auditJson : JsonCodec AuditEnvelope) : System (EventState ι) (EventLabel ι) :=
  .ofFunction (fun state => state = ⟨.empty, fun _ => .idle, fun _ => .idle⟩)
    (EventState.apply (runtimeFormat runtimeJson) (auditFormat auditJson))

/-- The streams of a step have valid identifiers and no agent called `_none`. -/
def EventLabel.Plain {ι : Type} (label : EventLabel ι) : Prop :=
  ∀ stream ∈ label.streams, stream.Valid ∧ stream.NamesAgent

/-! ## What the logs hold -/

section

variable {α : Type} (format : LogFormat α)

/-- The payload was written for a record of the stream the path belongs to. -/
def LogFormat.Wrote (path : ScopedPath) (payload : List UInt8) : Prop :=
  ∃ record, format.toVec record = .ok payload ∧
    streamPath format.kind (format.stream record) = .ok path ∧
    (format.stream record).Valid ∧ (format.stream record).NamesAgent

variable {format} {plane : EventPlane} {record : EventRecord} {request : ReadRequest}
    {groups : List (Group α)} {payloads : List (List UInt8)}

theorem payload_of_mem_appendAll {log : List EventRecord}
    (stored : record ∈ (State.appendAll log payloads).2) :
    record ∈ log ∨ record.payload ∈ payloads := by
  induction payloads generalizing log with
  | nil => exact .inl stored
  | cons _ _ ih =>
    rcases ih stored with earlier | later
    · rcases mem_append.mp earlier with old | new
      · exact .inl old
      · rw [mem_singleton.mp new]
        exact .inr mem_cons_self
    · exact .inr (mem_cons_of_mem _ later)

theorem mem_logAt_appendBatch {path other : ScopedPath}
    (stored : record ∈ (plane.appendBatch path payloads).2.logAt other) :
    record ∈ plane.logAt other ∨ other = path ∧ record.payload ∈ payloads := by
  by_cases same : other = path
  · subst same
    simp only [EventPlane.appendBatch, EventPlane.logAt, Table.get_insert_self,
      Option.getD_some] at stored
    rcases payload_of_mem_appendAll stored with old | new
    · exact .inl old
    · exact .inr ⟨rfl, new⟩
  · simp only [EventPlane.appendBatch, EventPlane.logAt, Table.get_insert_of_ne _ _ same] at stored
    exact .inl stored

theorem append_cases (record : α) (plane : EventPlane) : (append format record plane).2 = plane ∨
      ∃ path payload, streamPath format.kind (format.stream record) = .ok path ∧
        format.toVec record = .ok payload ∧
        (append format record plane).2 = (plane.appendBatch path [payload]).2 := by
  cases found : streamPath format.kind (format.stream record) with
  | error error => exact .inl (by simp only [append, found])
  | ok path =>
    cases written : format.toVec record with
    | error => exact .inl (by simp only [append, found, written])
    | ok payload => exact .inr ⟨path, payload, rfl, rfl, by simp only [append, found, written]⟩

/-- What a plane gained was written for the streams of the format. -/
def LogFormat.Adds (format : LogFormat α) (plane after : EventPlane) : Prop :=
  ∀ path, ∀ row ∈ after.logAt path, row ∈ plane.logAt path ∨ format.Wrote path row.payload

theorem adds_append {record : α} (valid : (format.stream record).Valid)
    (names : (format.stream record).NamesAgent) (plane : EventPlane) :
    format.Adds plane (append format record plane).2 := by
  intro _ _ stored
  rcases append_cases record plane with kept | ⟨_, _, found, written, grown⟩
  · rw [kept] at stored
    exact .inl stored
  · rw [grown] at stored
    rcases mem_logAt_appendBatch stored with old | ⟨rfl, new⟩
    · exact .inl old
    · rw [mem_singleton.mp new]
      exact .inr ⟨record, written, found, valid, names⟩

/-! ## Batches -/

/-- Every record of a group belongs to the path of the group. -/
def Placed (format : LogFormat α) (groups : List (Group α)) : Prop :=
  ∀ group ∈ groups, ∀ item ∈ group.2, streamPath format.kind (format.stream item.2) = .ok group.1 ∧
      (format.stream item.2).Valid ∧ (format.stream item.2).NamesAgent

theorem placed_addToGroup {path : ScopedPath} {item : Nat × α} (placed : Placed format groups)
    (belongs : streamPath format.kind (format.stream item.2) = .ok path ∧
      (format.stream item.2).Valid ∧ (format.stream item.2).NamesAgent) :
    Placed format (addToGroup path item groups) := by
  induction groups with
  | nil =>
    intro group listed row inside
    rw [addToGroup, mem_singleton] at listed
    subst listed
    rw [mem_singleton.mp inside]
    exact belongs
  | cons first rest ih =>
    obtain ⟨_, _⟩ := first
    have restPlaced : Placed format rest :=
      fun group listed => placed group (mem_cons_of_mem _ listed)
    intro group listed row inside
    rw [addToGroup] at listed
    split at listed
    next same =>
      rcases mem_cons.mp listed with rfl | listed
      · rcases mem_append.mp inside with old | new
        · exact placed _ mem_cons_self row old
        · rw [mem_singleton.mp new]
          exact same ▸ belongs
      · exact restPlaced group listed row inside
    · rcases mem_cons.mp listed with rfl | listed
      · exact placed _ mem_cons_self row inside
      · exact ih restPlaced group listed row inside

theorem placed_groupBatch {items : List (Nat × α)}
    (plain : ∀ item ∈ items, (format.stream item.2).Valid ∧ (format.stream item.2).NamesAgent) :
    Placed format (groupBatch format items).2 := by
  have start : Placed format (([], []) : BatchResults α × List (Group α)).2 := nofun
  refine foldlRecOn (motive := fun grouped : BatchResults α × List (Group α) =>
    Placed format grouped.2) items _ start ?_
  intro _ placed item listed
  dsimp only
  split
  next _ found => exact placed_addToGroup placed ⟨found, plain item listed⟩
  · exact placed

theorem adds_appendGroup {group : Group α} (placed : Placed format groups) (listed : group ∈ groups)
    (plane : EventPlane) : format.Adds plane (appendGroup format group plane).2 := by
  intro _ row stored
  rcases mem_logAt_appendBatch stored with old | ⟨rfl, new⟩
  · exact .inl old
  obtain ⟨⟨_, _⟩, kept, same⟩ := mem_map.mp new
  obtain ⟨source, inside, made⟩ := mem_filterMap.mp kept
  cases written : format.toVec source.2 with
  | error => simp [written, Except.toOption] at made
  | ok bytes =>
    have bytesEq : bytes = row.payload := by
      rw [written] at made
      cases made
      exact same
    have belongs := placed group listed source inside
    exact .inr ⟨source.2, bytesEq ▸ written, belongs⟩

theorem LogFormat.Adds.trans {first second third : EventPlane} (earlier : format.Adds first second)
    (later : format.Adds second third) : format.Adds first third := by
  intro path row stored
  rcases later path row stored with old | new
  · exact earlier path row old
  · exact .inr new

theorem adds_appendBatch {records : List α}
    (plain : ∀ record ∈ records, (format.stream record).Valid ∧ (format.stream record).NamesAgent)
    (plane : EventPlane) : format.Adds plane (appendBatch format records plane).2 := by
  have placed : Placed format
      (groupBatch format (records.zipIdx.map fun row => (row.2, row.1))).2 := by
    refine placed_groupBatch fun item listed => ?_
    obtain ⟨⟨record, _⟩, zipped, rfl⟩ := mem_map.mp listed
    exact plain record (fst_mem_of_mem_zipIdx zipped)
  refine foldlRecOn (motive := fun batch : BatchResults α × EventPlane =>
    format.Adds plane batch.2) _ _ (fun path row stored => .inl stored) ?_
  intro batch added _ listed
  exact added.trans (adds_appendGroup placed listed batch.2)

/-! ## Reads -/

/-- What is read at the path of a stream belongs to the stream. -/
def LogFormat.Pure (format : LogFormat α) (plane : EventPlane) : Prop :=
  ∀ stream path, stream.Valid → stream.NamesAgent → streamPath format.kind stream = .ok path →
    ∀ row ∈ plane.logAt path, ∀ found, format.fromSlice row.payload = .ok found →
      format.stream found = stream

/-- The entries of a read belong to the stream it was asked for. -/
def Reader.Isolated (format : LogFormat α) : Reader α → Prop
  | .scanning request path _ scan =>
    streamPath format.kind request.stream = .ok path ∧ request.stream.Valid ∧
      request.stream.NamesAgent ∧
      ∀ entry ∈ scan.entries, format.stream entry.record = request.stream
  | .returned request (.ok replay) =>
    ∀ entry ∈ replay.entries, format.stream entry.record = request.stream
  | _ => True

theorem isolated_start (valid : request.stream.Valid) (names : request.stream.NamesAgent) :
    (start format request).Isolated format := by
  unfold start
  split
  · trivial
  split
  · trivial
  next _ found => exact ⟨found, valid, names, nofun⟩

theorem isolated_scanRecords {rows : List EventRecord}
    (ownRows : ∀ row ∈ rows, ∀ found, format.fromSlice row.payload = .ok found →
      format.stream found = request.stream) {scan scanned : Scan α}
    (own : ∀ entry ∈ scan.entries, format.stream entry.record = request.stream)
    (done : scanRecords format request rows scan = .ok scanned) :
    ∀ entry ∈ scanned.entries, format.stream entry.record = request.stream := by
  induction rows generalizing scan with
  | nil =>
    cases done
    exact own
  | cons row _ ih =>
    have ownRest := fun other listed => ownRows other (mem_cons_of_mem row listed)
    rw [scanRecords] at done
    cases read : format.fromSlice row.payload with
    | error =>
      rw [read] at done
      cases done
    | ok event =>
      have grown : ∀ entry ∈ scan.entries ++ [⟨⟨row.seq.value⟩, event⟩],
          format.stream entry.record = request.stream := by
        intro entry listed
        rcases mem_append.mp listed with old | new
        · exact own entry old
        · rw [mem_singleton.mp new]
          exact ownRows row mem_cons_self event read
      simp only [read] at done
      split at done
      · split at done
        · cases done
          exact grown
        · exact ih ownRest grown done
      · refine ih ownRest ?_ done
        exact own

theorem isolated_run (pure : format.Pure plane) {reader : Reader α}
    (isolated : reader.Isolated format) : (reader.run format plane).Isolated format := by
  cases reader with
  | idle => trivial
  | returned request => exact isolated
  | probing request path =>
    simp only [run]
    split
    · trivial
    · exact nofun
  | scanning request path _ scan =>
    obtain ⟨found, valid, names, own⟩ := isolated
    have ownRows : ∀ row ∈ plane.tailBounded path scan.lastScanned.value
        (tailScanPageLimit (request.limit - scan.entries.length)), ∀ event,
          format.fromSlice row.payload = .ok event → format.stream event = request.stream := by
      intro row listed
      refine pure request.stream path valid names found row ?_
      exact mem_of_mem_filter (mem_of_mem_take listed)
    simp only [run]
    split
    · split
      · trivial
      · exact own
    · split
      · trivial
      rename_i done
      have later := isolated_scanRecords ownRows own done
      split
      · exact later
      · exact ⟨found, valid, names, later⟩

end

/-! ## Isolation -/

section

variable {runtime : LogFormat RuntimeEvent} {audit : LogFormat AuditEnvelope}

/-- Every log holds what was written for the stream of its path. -/
def Partitioned (runtime : LogFormat RuntimeEvent) (audit : LogFormat AuditEnvelope)
    (plane : EventPlane) : Prop :=
  ∀ path, ∀ row ∈ plane.logAt path, runtime.Wrote path row.payload ∨ audit.Wrote path row.payload

theorem own_of_wrote {α β : Type} {format : LogFormat α} {other : LogFormat β}
    (kinds : format.kind ≠ other.kind) {stream : EventStreamKey} {path : ScopedPath}
    (valid : stream.Valid) (names : stream.NamesAgent)
    (named : streamPath format.kind stream = .ok path) {payload : List UInt8}
    (wrote : format.Wrote path payload ∨ other.Wrote path payload) {found : α}
    (read : format.fromSlice payload = .ok found) : format.stream found = stream := by
  rcases wrote with ⟨record, written, recordNamed, recordValid, recordNames⟩ |
    ⟨record, _, recordNamed, recordValid, recordNames⟩
  · rw [format.reads record payload found written read]
    exact (streamPath_injective recordValid valid recordNames names recordNamed named).2
  · exact absurd (streamPath_injective valid recordValid names recordNames named recordNamed).1
      kinds

structure EventState.Isolated {ι : Type} (runtime : LogFormat RuntimeEvent)
    (audit : LogFormat AuditEnvelope) (state : EventState ι) : Prop where
  partitioned : Partitioned runtime audit state.plane
  runtimeReaders : ∀ reader, (state.runtimeReaders reader).Isolated runtime
  auditReaders : ∀ reader, (state.auditReaders reader).Isolated audit

namespace EventState.Isolated

variable {ι : Type} {state : EventState ι}

variable (isolated : state.Isolated runtime audit)
include isolated

theorem grow {plane : EventPlane}
    (added : runtime.Adds state.plane plane ∨ audit.Adds state.plane plane) :
    EventState.Isolated runtime audit { state with plane } :=
  { isolated with
    partitioned := by
      intro path row stored
      rcases added with added | added
      · exact (added path row stored).elim (isolated.partitioned path row) .inl
      · exact (added path row stored).elim (isolated.partitioned path row) .inr }

theorem set_runtimeReader [DecidableEq ι] (reader : ι) {next : Reader RuntimeEvent}
    (own : next.Isolated runtime) : EventState.Isolated runtime audit
      { state with runtimeReaders := update state.runtimeReaders reader next } :=
  { isolated with
    runtimeReaders := (forall_update_iff state.runtimeReaders
      fun _ next => next.Isolated runtime).mpr
        ⟨own, fun other _ => isolated.runtimeReaders other⟩ }

theorem set_auditReader [DecidableEq ι] (reader : ι) {next : Reader AuditEnvelope}
    (own : next.Isolated audit) : EventState.Isolated runtime audit
      { state with auditReaders := update state.auditReaders reader next } :=
  { isolated with
    auditReaders := (forall_update_iff state.auditReaders
      fun _ next => next.Isolated audit).mpr ⟨own, fun other _ => isolated.auditReaders other⟩ }

end EventState.Isolated

end

section

variable {ι : Type} [DecidableEq ι] {runtimeJson : JsonCodec RuntimeEvent}
  {auditJson : JsonCodec AuditEnvelope} {state : EventState ι}
  (isolated : state.Isolated (runtimeFormat runtimeJson) (auditFormat auditJson))

include isolated

omit [DecidableEq ι] in
theorem EventState.Isolated.pure_runtime : (runtimeFormat runtimeJson).Pure state.plane := by
  intro _ path valid names named row stored _ read
  have kinds : runtime ≠ audit := by decide
  exact own_of_wrote kinds valid names named (isolated.partitioned path row stored) read

omit [DecidableEq ι] in
theorem EventState.Isolated.pure_audit : (auditFormat auditJson).Pure state.plane := by
  intro _ path valid names named row stored _ read
  have kinds : audit ≠ runtime := by decide
  exact own_of_wrote kinds valid names named (isolated.partitioned path row stored).symm read

theorem EventState.isolated_apply {label : EventLabel ι} (plain : label.Plain) :
    (state.apply (runtimeFormat runtimeJson) (auditFormat auditJson) label).Isolated
      (runtimeFormat runtimeJson) (auditFormat auditJson) := by
  cases label with
  | append event =>
    obtain ⟨valid, names⟩ := plain (.fromScope event.scope) (mem_singleton_self _)
    have added : (runtimeFormat runtimeJson).Adds state.plane
        (append (runtimeFormat runtimeJson) event state.plane).2 :=
      adds_append valid names state.plane
    exact isolated.grow (.inl added)
  | appendBatch events =>
    have batchPlain : ∀ event ∈ events, (fromScope event.scope).Valid ∧
        (fromScope event.scope).NamesAgent :=
      fun event listed => plain _ (mem_map.mpr ⟨event, listed, rfl⟩)
    have added : (runtimeFormat runtimeJson).Adds state.plane
        (appendBatch (runtimeFormat runtimeJson) events state.plane).2 :=
      adds_appendBatch batchPlain state.plane
    exact isolated.grow (.inl added)
  | appendAudit record =>
    obtain ⟨valid, names⟩ := plain ⟨record.tenantId, record.userId, record.agentId⟩
      (mem_singleton_self _)
    have added : (auditFormat auditJson).Adds state.plane
        (append (auditFormat auditJson) record state.plane).2 :=
      adds_append valid names state.plane
    exact isolated.grow (.inr added)
  | read reader request =>
    obtain ⟨valid, names⟩ := plain request.stream (mem_singleton_self _)
    exact isolated.set_runtimeReader reader (isolated_start valid names)
  | readAudit reader request =>
    obtain ⟨valid, names⟩ := plain request.stream (mem_singleton_self _)
    exact isolated.set_auditReader reader (isolated_start valid names)
  | page reader =>
    have moved := isolated_run isolated.pure_runtime (isolated.runtimeReaders reader)
    exact isolated.set_runtimeReader reader moved
  | auditPage reader =>
    have moved := isolated_run isolated.pure_audit (isolated.auditReaders reader)
    exact isolated.set_auditReader reader moved

omit isolated in
/-- While no agent is called `_none`, reads of both logs return only records of the stream
they ask for, and different streams have different paths. -/
theorem eventRuns.streams_isolated {state : EventState ι}
    (reached : (eventRuns ι runtimeJson auditJson).Reachable (fun _ label => label.Plain) state) :
    (∀ reader request replay, state.runtimeReaders reader = .returned request (.ok replay) →
      ∀ entry ∈ replay.entries, fromScope entry.record.scope = request.stream) ∧
    (∀ reader request replay, state.auditReaders reader = .returned request (.ok replay) →
      ∀ entry ∈ replay.entries,
        ⟨entry.record.tenantId, entry.record.userId, entry.record.agentId⟩ = request.stream) ∧
    ∀ (kind : StreamKind) (first second : EventStreamKey), first.Valid → second.Valid →
      first.NamesAgent → second.NamesAgent → streamPath kind first = streamPath kind second →
        first = second := by
  have isolated : state.Isolated (runtimeFormat runtimeJson) (auditFormat auditJson) := by
    refine reached.invariant
      (EventState.Isolated (runtimeFormat runtimeJson) (auditFormat auditJson)) ?_ ?_
    · rintro _ rfl
      exact ⟨nofun, fun _ => trivial, fun _ => trivial⟩
    · rintro before _ _ isolated plain rfl
      exact before.isolated_apply isolated plain
  refine ⟨?_, ?_, ?_⟩
  · intro reader request replay returned
    have own := isolated.runtimeReaders reader
    rw [returned] at own
    exact own
  · intro reader _ _ returned
    have own := isolated.auditReaders reader
    rw [returned] at own
    exact own
  · intro kind _ _ firstValid secondValid firstNames secondNames same
    obtain ⟨_, named, _⟩ := streamPath_parts kind firstValid
    exact (streamPath_injective firstValid secondValid firstNames secondNames named
      (same ▸ named)).2

end

/-! ## An agent called `_none` -/

def sampleStream (agentId : Option AgentId) : EventStreamKey := ⟨⟨"tenant"⟩, ⟨"user"⟩, agentId⟩

def agentlessEvent : RuntimeEvent where
  eventId := 7
  scope := { ResourceScope.system ⟨0⟩ with tenantId := ⟨"tenant"⟩, userId := ⟨"user"⟩ }
  processId := none

def botEvent : RuntimeEvent :=
  { agentlessEvent with
    eventId := 8
    scope := { agentlessEvent.scope with agentId := some ⟨"bot"⟩ } }

/-- Enough of a codec to write the two events. -/
def sampleJson : JsonCodec RuntimeEvent where
  toVec event := if event ∈ [agentlessEvent, botEvent] then .ok [.ofNat event.eventId]
    else .error "unsupported"
  fromSlice payload :=
    if payload = [7] then .ok agentlessEvent
    else if payload = [8] then .ok botEvent else .error "unsupported"
  reads record payload found written read := by
    split at written
    next listed =>
      cases written
      simp only [List.mem_cons, List.not_mem_nil, or_false] at listed
      rcases listed with rfl | rfl <;> exact (Except.ok.inj read).symm
    · cases written

def sampleAuditJson : JsonCodec AuditEnvelope where
  toVec _ := .error "unsupported"
  fromSlice _ := .error "unsupported"
  reads := nofun

def sampleRequest (agentId : Option AgentId) : ReadRequest :=
  ⟨sampleStream agentId, .any, .origin, 10⟩

def oneEvent (event : RuntimeEvent) : EventReplay RuntimeEvent := ⟨[⟨⟨1⟩, event⟩], ⟨1⟩⟩

section

variable {ι : Type} [DecidableEq ι]

def stateAfter (labels : List (EventLabel ι)) : EventState ι :=
  labels.foldl (EventState.apply (runtimeFormat sampleJson) (auditFormat sampleAuditJson))
    ⟨.empty, fun _ => .idle, fun _ => .idle⟩

theorem stateAfter_reached {labels : List (EventLabel ι)} {allowed : EventStreamKey → Prop}
    (streams : ∀ label ∈ labels, ∀ stream ∈ label.streams, allowed stream) :
    (eventRuns ι sampleJson sampleAuditJson).Reachable
      (fun _ label => ∀ stream ∈ label.streams, allowed stream) (stateAfter labels) := by
  have started : (eventRuns ι sampleJson sampleAuditJson).Reachable
      (fun _ label => ∀ stream ∈ label.streams, allowed stream)
      ⟨.empty, fun _ => .idle, fun _ => .idle⟩ := .start rfl
  exact started.followAllowed labels (System.allowedAlong_of_forall (fun _ => streams) _)

end

theorem valid_sampleStream {agentId : Option AgentId}
    (valid : ∀ id ∈ agentId, validateScopeId id.value = true) : (sampleStream agentId).Valid := by
  have tenant : validateScopeId "tenant" = true := by decide +kernel
  have user : validateScopeId "user" = true := by decide +kernel
  exact ⟨tenant, user, valid⟩

/-- Both events are appended, and each of two readers reads a stream. -/
def twoReaders : List (EventLabel Bool) :=
  [.append agentlessEvent, .append botEvent, .read false (sampleRequest none),
    .read true (sampleRequest (some ⟨"bot"⟩)), .page false, .page true]

/-- Each reader is given the event of its own stream. -/
theorem two_readers_isolated :
    (stateAfter twoReaders).runtimeReaders false =
        .returned (sampleRequest none) (.ok (oneEvent agentlessEvent)) ∧
      (stateAfter twoReaders).runtimeReaders true =
        .returned (sampleRequest (some ⟨"bot"⟩)) (.ok (oneEvent botEvent)) ∧
      ∀ entry ∈ (oneEvent botEvent).entries,
        fromScope entry.record.scope = sampleStream (some ⟨"bot"⟩) := by
  have returned : (stateAfter twoReaders).runtimeReaders true =
      .returned (sampleRequest (some ⟨"bot"⟩)) (.ok (oneEvent botEvent)) := rfl
  have streams : ∀ label ∈ twoReaders, ∀ stream ∈ label.streams,
      stream = sampleStream none ∨ stream = sampleStream (some ⟨"bot"⟩) := by decide
  have reached : (eventRuns Bool sampleJson sampleAuditJson).Reachable
      (fun _ label => label.Plain) (stateAfter twoReaders) := by
    refine stateAfter_reached fun label listed stream named => ?_
    rcases streams label listed stream named with rfl | rfl
    · exact ⟨valid_sampleStream nofun, nofun⟩
    · refine ⟨valid_sampleStream ?_, show some (AgentId.mk "bot") ≠ some ⟨"_none"⟩ by decide⟩
      rintro _ ⟨⟩
      decide +kernel
  exact ⟨rfl, returned, (eventRuns.streams_isolated reached).1 true _ _ returned⟩

/-- The agentless event is read as the stream of an agent called `_none`. -/
def readAsNone : List (EventLabel Unit) :=
  [.append agentlessEvent, .read () (sampleRequest (some ⟨"_none"⟩)), .page ()]

/-- An agent called `_none` has the path of the stream without agent, and reads its events:
every identifier here passes the check. -/
theorem none_agent_reads_agentless : ∃ state : EventState Unit, ∃ stream : EventStreamKey,
      (eventRuns Unit sampleJson sampleAuditJson).Reachable
        (fun _ label => ∀ stream ∈ label.streams, stream.Valid) state ∧
      state.runtimeReaders () =
        .returned ⟨stream, .any, .origin, 10⟩ (.ok (oneEvent agentlessEvent)) ∧
      (∃ entry ∈ (oneEvent agentlessEvent).entries, fromScope entry.record.scope ≠ stream) ∧
      stream ≠ sampleStream none ∧
      streamPath .runtime stream = streamPath .runtime (sampleStream none) := by
  have streams : ∀ label ∈ readAsNone, ∀ stream ∈ label.streams,
      stream = sampleStream none ∨ stream = sampleStream (some ⟨"_none"⟩) := by decide
  refine ⟨stateAfter readAsNone, sampleStream (some ⟨"_none"⟩), stateAfter_reached ?_, rfl, ?_,
    by decide, rfl⟩
  · intro label listed stream named
    rcases streams label listed stream named with rfl | rfl
    · exact valid_sampleStream nofun
    · refine valid_sampleStream ?_
      rintro _ ⟨⟩
      decide +kernel
  · exact ⟨_, mem_singleton_self _, by decide⟩

end Ironclaw.Events
