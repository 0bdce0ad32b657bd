import Mathlib.Data.Bool.AllAny
import Mathlib.Data.Finset.Basic
import Ironclaw.HostApi.Encoding
import Ironclaw.Lib.Fallible
import Ironclaw.Lib.Percent
import Ironclaw.Turns.Status

/-!
# The scope roster

Every scope with unclosed edges has a marker file.  Its name carries the tenant, the user,
the agent and the project of the scope; recovery lists the marker directories at boot and
reads the scopes back from the names.  Reading checks every identifier, and the host's own
reserved identifiers do not pass that check.
-/

namespace Ironclaw.Turns

open HostApi

/-- `to_resource_scope`: a scope without explicit owner belongs to the reserved user. -/
def TurnScope.toResourceScope (scope : TurnScope) (invocationId : InvocationId) : ResourceScope :=
  { ResourceScope.system invocationId with
    tenantId := scope.tenantId
    userId := scope.threadOwner.explicitOwnerUserId.getD ⟨systemReservedId⟩
    agentId := scope.agentId
    projectId := scope.projectId
    missionId := none
    threadId := some scope.threadId }

end Ironclaw.Turns

namespace Ironclaw.Subagent

open HostApi Lib Turns

structure RosterKey where
  tenantId : TenantId
  userId : UserId
  agentId : Option AgentId
  projectId : Option ProjectId
  deriving DecidableEq

namespace RosterKey

def fromResourceScope (scope : ResourceScope) : RosterKey where
  tenantId := scope.tenantId
  userId := scope.userId
  agentId := scope.agentId
  projectId := scope.projectId

def toResourceScope (key : RosterKey) (invocationId : InvocationId) : ResourceScope :=
  { ResourceScope.system invocationId with
    tenantId := key.tenantId
    userId := key.userId
    agentId := key.agentId
    projectId := key.projectId }

def Valid (key : RosterKey) : Prop :=
  validateScopeId key.tenantId.value = true ∧ validateScopeId key.userId.value = true ∧
    (∀ id ∈ key.agentId, validateScopeId id.value = true) ∧
    ∀ id ∈ key.projectId, validateScopeId id.value = true

end RosterKey

namespace Roster

/-! ## Filenames -/

/-- `[A-Za-z0-9.-]`. -/
def isSafe (byte : UInt8) : Bool :=
  (48 ≤ byte && byte ≤ 57) || (65 ≤ byte && byte ≤ 90) || (97 ≤ byte && byte ≤ 122) ||
    byte = 46 || byte = 45

def percentEncode (value : String) : Text := Lib.percentEncode isSafe (bytesOf value.toList)

/-- The reason the standard library adds to a text that is no UTF-8 is left out. -/
def percentDecode (value : Text) : Except String String :=
  match fromBytes (Lib.percentDecode (bytesOf value)) with
  | some text => .ok text
  | none => .error "roster filename percent-decode failed"

def axisSegment (axisName : String) : Option String → String
  | some value => axisName ++ "-some-" ++ value
  | none => axisName ++ "-none"

def agentSegment : Option String → String := axisSegment "agent"

def projectSegment : Option String → String := axisSegment "project"

def encodeRosterFilename (key : RosterKey) : Text :=
  percentEncode key.tenantId.value ++ '_' :: '_' ::
    (percentEncode key.userId.value ++ '_' :: '_' ::
      (percentEncode (agentSegment (key.agentId.map (·.value))) ++ '_' :: '_' ::
        percentEncode (projectSegment (key.projectId.map (·.value)))))

/-- An identifier of a filename, checked as every identifier from outside is. -/
def decodeId (kind value : String) : Except String String :=
  (newScopeId kind value).mapError fun error =>
    "roster filename " ++ kind ++ "_id invalid: " ++ error

def decodeAxis (axisName decoded : String) : Except String (Option String) :=
  if decoded = axisName ++ "-none" then .ok none
  else
    match decoded.toList.dropPrefix? (axisName ++ "-some-").toList with
    | none => .error ("roster filename " ++ axisName ++ " segment malformed: " ++ decoded)
    | some value => (decodeId axisName (String.ofList value)).map some

/-- `decode_roster_filename`; an error carries the reason of the backend error. -/
def decodeRosterFilename (filename : Text) : Except String RosterKey :=
  match splitDoubled '_' filename with
  | [tenant, user, agent, project] => do
      let tenantId ← decodeId "tenant" (← percentDecode tenant)
      let userId ← decodeId "user" (← percentDecode user)
      let agentId ← decodeAxis "agent" (← percentDecode agent)
      let projectId ← decodeAxis "project" (← percentDecode project)
      return ⟨⟨tenantId⟩, ⟨userId⟩, agentId.map AgentId.mk, projectId.map ProjectId.mk⟩
  | parts => .error ("roster filename has " ++ toString parts.length ++ " segments, expected 4")

theorem isSafe_safeBytes : SafeBytes isSafe where
  ascii := by
    intro byte safe
    simp only [isSafe, Bool.or_eq_true, Bool.and_eq_true, decide_eq_true_eq, UInt8.le_iff_toNat_le,
      ← UInt8.toNat_inj] at safe
    simp at safe
    omega
  percent := by decide

theorem plain_of_mem_percentEncode {value : String} {letter : Char}
    (written : letter ∈ percentEncode value) :
    letter ≠ '_' ∧ letter ≠ '/' ∧ isPathLetter letter = true := by
  have digits : ∀ digit : Fin 16, hexDigit digit.val ≠ '_' ∧ hexDigit digit.val ≠ '/' ∧
      isPathLetter (hexDigit digit.val) = true := by decide
  have safeLetters : ∀ number : Fin 128, isSafe (UInt8.ofNat number.val) = true →
      Char.ofNat number.val ≠ '_' ∧ Char.ofNat number.val ≠ '/' ∧
        isPathLetter (Char.ofNat number.val) = true := by decide +kernel
  rcases mem_percentEncode written with rfl | ⟨digit, bound, rfl⟩ | ⟨byte, safe, rfl⟩
  · decide
  · exact digits ⟨digit, bound⟩
  · exact safeLetters ⟨byte.toNat, isSafe_safeBytes.ascii byte safe⟩ (by simpa using safe)

theorem percentEncode_free (value : String) : '_' ∉ percentEncode value :=
  fun written => (plain_of_mem_percentEncode written).1 rfl

theorem percentDecode_percentEncode (value : String) :
    percentDecode (percentEncode value) = .ok value := by
  rw [percentDecode, percentEncode, Lib.percentDecode_percentEncode isSafe_safeBytes,
    fromBytes_bytesOf]

theorem splitDoubled_encodeRosterFilename (key : RosterKey) :
    splitDoubled '_' (encodeRosterFilename key) =
      [percentEncode key.tenantId.value, percentEncode key.userId.value,
        percentEncode (agentSegment (key.agentId.map (·.value))),
        percentEncode (projectSegment (key.projectId.map (·.value)))] := by
  rw [encodeRosterFilename, splitDoubled_append (percentEncode_free _),
    splitDoubled_append (percentEncode_free _), splitDoubled_append (percentEncode_free _),
    splitDoubled_of_free (percentEncode_free _)]

/-! ## Reading a filename back -/

theorem decodeId_eq_ok {kind value id : String} :
    decodeId kind value = .ok id ↔ id = value ∧ validateScopeId value = true := by
  unfold decodeId
  constructor
  · intro accepted
    cases made : newScopeId kind value with
    | error =>
      rw [made] at accepted
      cases accepted
    | ok =>
      rw [made] at accepted
      cases accepted
      exact newScopeId_eq_ok made
  · rintro ⟨rfl, valid⟩
    rw [newScopeId, (scopeIdRefusal_eq_none _).mpr valid]
    rfl

theorem axisSegment_some_ne (axisName value : String) :
    axisSegment axisName (some value) ≠ axisName ++ "-none" := by
  intro same
  have letters := congrArg String.toList same
  simp [axisSegment, String.toList_append] at letters

variable {axisName : String}

theorem axisSegment_injective {first second : Option String}
    (same : axisSegment axisName first = axisSegment axisName second) : first = second := by
  cases first with
  | none =>
    cases second with
    | none => rfl
    | some value => exact absurd same.symm (axisSegment_some_ne axisName value)
  | some value =>
    cases second with
    | none => exact absurd same (axisSegment_some_ne axisName value)
    | some =>
      have letters := congrArg String.toList same
      simp only [axisSegment, String.toList_append, List.append_cancel_left_eq] at letters
      rw [String.toList_injective letters]

theorem decodeAxis_axisSegment {id : Option String}
    (valid : ∀ value ∈ id, validateScopeId value = true) :
    decodeAxis axisName (axisSegment axisName id) = .ok id := by
  cases id with
  | none => rw [decodeAxis, axisSegment, if_pos rfl]
  | some value =>
    have read : (axisSegment axisName (some value)).toList.dropPrefix?
        (axisName ++ "-some-").toList = some value.toList := by
      rw [List.dropPrefix?_eq_some_iff]
      exact ⟨(axisName ++ "-some-").toList, by simp [axisSegment], by simp⟩
    have accepted : decodeId axisName value = .ok value := decodeId_eq_ok.mpr ⟨rfl, valid value rfl⟩
    rw [decodeAxis, if_neg (axisSegment_some_ne axisName value), read]
    simp only [String.ofList_toList, accepted]
    rfl

theorem valid_of_decodeAxis {decoded : String} {found : Option String}
    (read : decodeAxis axisName decoded = .ok found) :
    ∀ value ∈ found, validateScopeId value = true := by
  intro _ present
  cases present
  unfold decodeAxis at read
  split at read
  · cases read
  split at read
  · cases read
  obtain ⟨_, accepted, same⟩ := map_eq_ok.mp read
  cases same
  obtain ⟨rfl, valid⟩ := decodeId_eq_ok.mp accepted
  exact valid

variable {key : RosterKey}

theorem decode_encode (valid : key.Valid) :
    decodeRosterFilename (encodeRosterFilename key) = .ok key := by
  obtain ⟨⟨tenant⟩, ⟨user⟩, agent, project⟩ := key
  obtain ⟨tenantValid, userValid, agentValid, projectValid⟩ := valid
  have agentRead : decodeAxis "agent" (agentSegment (agent.map (·.value))) =
      .ok (agent.map (·.value)) := decodeAxis_axisSegment (by simpa using agentValid)
  have projectRead : decodeAxis "project" (projectSegment (project.map (·.value))) =
      .ok (project.map (·.value)) := decodeAxis_axisSegment (by simpa using projectValid)
  rw [decodeRosterFilename, splitDoubled_encodeRosterFilename]
  simp only [percentDecode_percentEncode, bind_eq_ok, decodeId_eq_ok, Except.ok.injEq,
    exists_eq_left', agentRead, projectRead, and_assoc]
  refine ⟨tenant, rfl, tenantValid, user, rfl, userValid, ?_⟩
  simp [Function.comp_def, pure, Except.pure]

theorem valid_of_decode {filename : Text}
    (read : decodeRosterFilename filename = .ok key) : key.Valid := by
  unfold decodeRosterFilename at read
  split at read
  · simp only [bind_eq_ok, decodeId_eq_ok] at read
    obtain ⟨_, _, _, ⟨rfl, tenantValid⟩, _, _, _, ⟨rfl, userValid⟩, _, _, _, agentRead, _, _,
      project, projectRead, made⟩ := read
    cases made
    exact ⟨tenantValid, userValid, by simpa using valid_of_decodeAxis agentRead,
      by simpa using valid_of_decodeAxis projectRead⟩
  · cases read

/-- Distinct keys have distinct filenames, whatever their identifiers are. -/
theorem encodeRosterFilename_injective {first second : RosterKey}
    (same : encodeRosterFilename first = encodeRosterFilename second) : first = second := by
  have segments := congrArg (splitDoubled '_') same
  have texts : ∀ {left right : String}, percentEncode left = percentEncode right →
      left = right := by
    intro left right written
    have read := congrArg percentDecode written
    rw [percentDecode_percentEncode, percentDecode_percentEncode] at read
    exact Except.ok.inj read
  rw [splitDoubled_encodeRosterFilename, splitDoubled_encodeRosterFilename] at segments
  simp only [List.cons.injEq, and_true] at segments
  obtain ⟨tenants, users, agents, projects⟩ := segments
  have sameAgent := axisSegment_injective (texts agents)
  have sameProject := axisSegment_injective (texts projects)
  obtain ⟨⟨_⟩, ⟨_⟩, agent, project⟩ := first
  obtain ⟨⟨_⟩, ⟨_⟩, otherAgent, otherProject⟩ := second
  cases texts tenants
  cases texts users
  have agentEq : agent = otherAgent :=
    Option.map_injective (fun _ _ equal => congrArg AgentId.mk equal) sameAgent
  have projectEq : project = otherProject :=
    Option.map_injective (fun _ _ equal => congrArg ProjectId.mk equal) sameProject
  rw [agentEq, projectEq]

/-! ## Marker files -/

/-- The first byte of the hash of a text. -/
class Blake3 where
  firstByte : Text → UInt8

def lowerHexDigit (value : Nat) : Char :=
  if value < 10 then Char.ofNat (48 + value) else Char.ofNat (87 + value)

/-- A byte as two lower-case digits. -/
def shardName (index : Nat) : Text := [lowerHexDigit (index / 16), lowerHexDigit (index % 16)]

def rosterShardCount : Nat := 256

def rosterShardDir (shard : Text) : Except HostApiError ScopedPath :=
  ScopedPath.new ("/turns/subagent-await-scopes/".toList ++ shard)

/-- `walk_roster_shards` over what the directories list; a directory that is missing or
cannot be listed is skipped, and so is a name that is not read back. -/
def walkRosterShards (listDir : ScopedPath → Option (List Text)) : List RosterKey :=
  (List.range rosterShardCount).flatMap fun index =>
    match rosterShardDir (shardName index) with
    | .error _ => []
    | .ok dir =>
      ((listDir dir).getD []).filterMap fun name =>
        (name.dropSuffix? ".json".toList).bind fun filename =>
          (decodeRosterFilename filename).toOption

theorem valid_of_mem_walkRosterShards {listDir : ScopedPath → Option (List Text)}
    (walked : key ∈ walkRosterShards listDir) : key.Valid := by
  obtain ⟨_, _, inShard⟩ := List.mem_flatMap.mp walked
  split at inShard
  · cases inShard
  obtain ⟨_, _, read⟩ := List.mem_filterMap.mp inShard
  obtain ⟨filename, _, decoded⟩ := Option.bind_eq_some_iff.mp read
  cases outcome : decodeRosterFilename filename with
  | error =>
    rw [outcome] at decoded
    cases decoded
  | ok =>
    rw [outcome] at decoded
    cases decoded
    exact valid_of_decode outcome

theorem isPart_shardName {index : Nat} (bound : index < rosterShardCount) :
    IsPart (shardName index) := by
  have all : ∀ shard : Fin 256, IsPart (shardName shard.val) := by decide +kernel
  exact all ⟨index, bound⟩

theorem isPart_markerName (key : RosterKey) :
    IsPart (encodeRosterFilename key ++ ".json".toList) := by
  have letters : ∀ letter ∈ encodeRosterFilename key ++ ".json".toList,
      letter ≠ '/' ∧ isPathLetter letter = true := by
    intro letter held
    have suffix : ∀ letter ∈ "_.json".toList, letter ≠ '/' ∧ isPathLetter letter = true := by
      rw [← List.all_iff_forall_prop]
      decide
    simp only [encodeRosterFilename, List.mem_append, List.mem_cons, or_assoc] at held
    rcases held with held | rfl | rfl | held | rfl | rfl | held | rfl | rfl | held | held
    case inr.inr.inr.inr.inr.inr.inr.inr.inr.inr =>
      exact suffix letter (List.mem_cons_of_mem _ held)
    all_goals first
      | exact (plain_of_mem_percentEncode held).2
      | exact suffix '_' (by decide)
  have long : 5 ≤ (encodeRosterFilename key ++ ".json".toList).length := by simp
  refine ⟨?_, ?_, ?_, fun slash => (letters '/' slash).1 rfl, ?_⟩
  iterate 3
    · intro same
      rw [same] at long
      simp at long
  · exact List.all_eq_true.mpr fun letter held => (letters letter held).2

/-- The directories of the markers, as paths. -/
def rosterRoot : List Text := ["turns".toList, "subagent-await-scopes".toList]

theorem new_rosterRoot {rest : List Text} (wellFormed : ∀ part ∈ rest, IsPart part) :
    ∃ path : ScopedPath, ScopedPath.new (joinSegments '/' (rosterRoot ++ rest)) = .ok path ∧
      path.path.parts = rosterRoot ++ rest := by
  let path : NormalizedPath :=
    { parts := rosterRoot ++ rest
      nonempty := by simp [rosterRoot]
      wellFormed := by
        intro part listed
        rcases List.mem_append.mp listed with listed | listed
        · have root : ∀ part ∈ rosterRoot, IsPart part := by decide
          exact root part listed
        · exact wellFormed part listed }
  have read : ScopedPath.new path.asStr = .ok ⟨path⟩ := ScopedPath.new_asStr rfl rfl
  exact ⟨⟨path⟩, read, rfl⟩

theorem rosterShardDir_shardName {index : Nat} (bound : index < rosterShardCount) :
    ∃ dir : ScopedPath, rosterShardDir (shardName index) = .ok dir ∧
      dir.path.parts = rosterRoot ++ [shardName index] := by
  have wellFormed : ∀ part ∈ [shardName index], IsPart part := by
    intro _ listed
    rw [List.mem_singleton.mp listed]
    exact isPart_shardName bound
  obtain ⟨dir, read, parts⟩ := new_rosterRoot wellFormed
  refine ⟨dir, ?_, parts⟩
  rw [← read, rosterShardDir]
  simp [rosterRoot]

/-! ## The key of a scope -/

variable (scope : TurnScope)

def keyOf (invocationId : InvocationId) : RosterKey :=
  .fromResourceScope (scope.toResourceScope invocationId)

/-- The scope has an explicit owner, and its identifiers are ones the check accepts. -/
def OwnedByUser : Prop :=
  (∃ owner, scope.threadOwner = .explicitUser owner ∧ validateScopeId owner.value = true) ∧
    validateScopeId scope.tenantId.value = true ∧
    (∀ id ∈ scope.agentId, validateScopeId id.value = true) ∧
    ∀ id ∈ scope.projectId, validateScopeId id.value = true

/-- The reserved user of a scope without owner does not pass the check. -/
theorem valid_keyOf_iff (invocationId : InvocationId) :
    (keyOf scope invocationId).Valid ↔ OwnedByUser scope := by
  have reserved : validateScopeId systemReservedId = false := by decide +kernel
  constructor
  · rintro ⟨tenantValid, userValid, agentValid, projectValid⟩
    refine ⟨?_, tenantValid, agentValid, projectValid⟩
    change validateScopeId (scope.threadOwner.explicitOwnerUserId.getD
      ⟨systemReservedId⟩).value = true at userValid
    cases owner : scope.threadOwner with
    | explicitUser ownerUserId =>
      rw [owner] at userValid
      exact ⟨ownerUserId, rfl, userValid⟩
    | actorFallback | ownerless =>
      rw [owner] at userValid
      exact absurd userValid (by simp [TurnThreadOwner.explicitOwnerUserId, reserved])
  · rintro ⟨⟨_, owned, ownerValid⟩, tenantValid, agentValid, projectValid⟩
    refine ⟨tenantValid, ?_, agentValid, projectValid⟩
    change validateScopeId (scope.threadOwner.explicitOwnerUserId.getD
      ⟨systemReservedId⟩).value = true
    rw [owned]
    exact ownerValid

/-! ## Histories of markers -/

/-- What changes the marker of a scope. -/
inductive RosterOp where
  | touch (key : RosterKey)
  | prune (key : RosterKey)

/-- The marker of a key was touched and not pruned since. -/
def Standing (key : RosterKey) (history : List RosterOp) : Prop :=
  ∃ before after, history = before ++ .touch key :: after ∧ RosterOp.prune key ∉ after

/-- A directory lists every file that stands in it. -/
def Lists (listDir : ScopedPath → Option (List Text)) (files : Finset ScopedPath) : Prop :=
  ∀ file ∈ files, ∀ (dir : ScopedPath) (name : Text),
    file.path.parts = dir.path.parts ++ [name] → ∃ names, listDir dir = some names ∧ name ∈ names

section

variable [hasher : Blake3]

def shardPrefix (filename : Text) : Text := shardName (hasher.firstByte filename).toNat

def rosterPath (key : RosterKey) : Except HostApiError ScopedPath :=
  let filename := encodeRosterFilename key
  ScopedPath.new ("/turns/subagent-await-scopes/".toList ++ shardPrefix filename ++
    '/' :: (filename ++ ".json".toList))

theorem rosterPath_parts (key : RosterKey) : ∃ path : ScopedPath, rosterPath key = .ok path ∧
      path.path.parts = rosterRoot ++ [shardPrefix (encodeRosterFilename key),
        encodeRosterFilename key ++ ".json".toList] := by
  have wellFormed : ∀ part ∈ [shardPrefix (encodeRosterFilename key),
      encodeRosterFilename key ++ ".json".toList], IsPart part := by
    intro _ listed
    rcases List.mem_cons.mp listed with rfl | listed
    · exact isPart_shardName (UInt8.toNat_lt _)
    · rw [List.mem_singleton.mp listed]
      exact isPart_markerName key
  obtain ⟨path, read, parts⟩ := new_rosterRoot wellFormed
  refine ⟨path, ?_, parts⟩
  rw [← read, rosterPath]
  simp [rosterRoot]

variable {path : ScopedPath}

theorem rosterPath_injective {first second : RosterKey}
    (firstPath : rosterPath first = .ok path) (secondPath : rosterPath second = .ok path) :
    first = second := by
  obtain ⟨_, read, parts⟩ := rosterPath_parts first
  obtain ⟨_, otherRead, otherParts⟩ := rosterPath_parts second
  rw [firstPath] at read
  rw [secondPath] at otherRead
  cases read
  cases otherRead
  rw [parts, List.append_cancel_left_eq] at otherParts
  simp only [List.cons.injEq, and_true, List.append_cancel_right_eq] at otherParts
  exact encodeRosterFilename_injective otherParts.2

/-! ## Markers that stand -/

def RosterOp.apply (files : Finset ScopedPath) : RosterOp → Finset ScopedPath
  | .touch key =>
    match rosterPath key with
    | .ok path => insert path files
    | .error _ => files
  | .prune key =>
    match rosterPath key with
    | .ok path => files.erase path
    | .error _ => files

/-- The marker files that are there after a history of calls. -/
def markerFiles (history : List RosterOp) : Finset ScopedPath := history.foldl RosterOp.apply ∅

theorem mem_apply_of_ne {files : Finset ScopedPath}
    (named : rosterPath key = .ok path) (present : path ∈ files) {op : RosterOp}
    (kept : op ≠ .prune key) : path ∈ op.apply files := by
  cases op with
  | touch other =>
    simp only [RosterOp.apply]
    split
    · exact Finset.mem_insert_of_mem present
    · exact present
  | prune =>
    simp only [RosterOp.apply]
    split
    next _ otherNamed =>
      refine Finset.mem_erase.mpr ⟨?_, present⟩
      rintro rfl
      exact kept (congrArg RosterOp.prune (rosterPath_injective otherNamed named))
    · exact present

theorem mem_markerFiles (named : rosterPath key = .ok path)
    {history : List RosterOp} (standing : Standing key history) : path ∈ markerFiles history := by
  obtain ⟨before, after, rfl, notPruned⟩ := standing
  have touched : path ∈ RosterOp.apply (markerFiles before) (.touch key) := by
    rw [RosterOp.apply, named]
    exact Finset.mem_insert_self _ _
  rw [markerFiles, List.foldl_append, List.foldl_cons]
  refine List.foldlRecOn (motive := (path ∈ ·)) after _ touched fun files present op listed => ?_
  refine mem_apply_of_ne named present fun pruned => ?_
  exact notPruned (pruned ▸ listed)

theorem mem_walkRosterShards (valid : key.Valid) {history : List RosterOp}
    {listDir : ScopedPath → Option (List Text)} (lists : Lists listDir (markerFiles history))
    (standing : Standing key history) : key ∈ walkRosterShards listDir := by
  obtain ⟨path, named, parts⟩ := rosterPath_parts key
  have bound : (hasher.firstByte (encodeRosterFilename key)).toNat < rosterShardCount :=
    UInt8.toNat_lt _
  obtain ⟨dir, dirRead, dirParts⟩ := rosterShardDir_shardName bound
  have inside : path.path.parts =
      dir.path.parts ++ [encodeRosterFilename key ++ ".json".toList] := by
    rw [parts, dirParts, List.append_assoc]
    rfl
  obtain ⟨_, listed, named⟩ := lists path (mem_markerFiles named standing) dir _ inside
  refine List.mem_flatMap.mpr ⟨_, List.mem_range.mpr bound, ?_⟩
  rw [dirRead]
  refine List.mem_filterMap.mpr ⟨encodeRosterFilename key ++ ".json".toList, ?_, ?_⟩
  · rw [listed]
    exact named
  · have stripped : (encodeRosterFilename key ++ ".json".toList).dropSuffix? ".json".toList =
        some (encodeRosterFilename key) :=
      List.dropSuffix?_eq_some_iff.mpr ⟨".json".toList, rfl, by decide⟩
    rw [stripped, Option.bind_some, decode_encode valid]
    rfl

/-! ## Which scopes recovery finds -/

/-- Boot recovery finds a scope: its filename is read back, no other key has the filename,
and the walk returns its key while its marker stands. -/
def FindsScope (scope : TurnScope) (invocationId : InvocationId) : Prop :=
  decodeRosterFilename (encodeRosterFilename (keyOf scope invocationId)) =
      .ok (keyOf scope invocationId) ∧
    (∀ other, encodeRosterFilename other = encodeRosterFilename (keyOf scope invocationId) →
      other = keyOf scope invocationId) ∧
    ∀ history listDir, Lists listDir (markerFiles history) →
      Standing (keyOf scope invocationId) history →
        keyOf scope invocationId ∈ walkRosterShards listDir

/-- Recovery finds exactly the scopes that a user owns explicitly and whose identifiers
pass the check. -/
theorem findsScope_iff_ownedByUser (scope : TurnScope) (invocationId : InvocationId) :
    FindsScope scope invocationId ↔ OwnedByUser scope := by
  rw [← valid_keyOf_iff scope invocationId]
  constructor
  · exact fun finds => valid_of_decode finds.1
  · intro valid
    refine ⟨decode_encode valid, fun _ => encodeRosterFilename_injective, ?_⟩
    exact fun _ _ lists standing => mem_walkRosterShards valid lists standing

end

def ownerlessScope : TurnScope where
  tenantId := ⟨"tenant"⟩
  agentId := none
  projectId := none
  threadId := ⟨"thread"⟩
  threadOwner := .ownerless

/-- The marker of a scope without owner stands, its directory is listed, and the walk
skips it: the reserved user in its name is refused. -/
theorem ownerlessScope_is_skipped : let hasher : Blake3 := ⟨fun _ => 0⟩
    let key := keyOf ownerlessScope ⟨0⟩
    ∃ history listDir, Lists listDir (@markerFiles hasher history) ∧ Standing key history ∧
      decodeRosterFilename (encodeRosterFilename key) =
        .error ("roster filename user_id invalid: " ++
          "invalid user id '\x1fSYSTEM\x1f': NUL/control characters are not allowed") ∧
      key ∉ walkRosterShards listDir := by
  intro hasher key
  have notValid : ¬key.Valid := by
    rw [valid_keyOf_iff]
    rintro ⟨⟨_, owned, _⟩, _⟩
    cases owned
  refine ⟨[.touch key], fun _ => some [encodeRosterFilename key ++ ".json".toList], ?_,
    ⟨[], [], rfl, by simp⟩, ?_, fun walked => notValid (valid_of_mem_walkRosterShards walked)⟩
  · intro file present dir name inside
    obtain ⟨path, named, parts⟩ := rosterPath_parts key
    have only : file = path := by
      simpa [markerFiles, RosterOp.apply, named] using present
    rw [only, parts, ← List.singleton_append, ← List.append_assoc] at inside
    exact ⟨_, rfl, (List.append_inj' inside rfl).2 ▸ List.mem_singleton_self _⟩
  · decide +kernel

end Roster

end Ironclaw.Subagent
