import Ironclaw.HostApi.Scope

/-!
# Scope identifiers in JSON

Identifiers are written as plain strings and checked when they are read.  The host mints a
few reserved identifiers that the check refuses; a decoder of a scope lets these through
in two of its fields, every other decoder does not.
-/

namespace Ironclaw.HostApi

def systemReservedId : String := "\x1fSYSTEM\x1f"

def tenantSharedManagedUserId : String := "__ironclaw_tenant_shared_admin__"

def reservedSentinel : String := "__ironclaw_"

variable (value : String)

/-- Whether `validate_scope_id` accepts a string. -/
def validateScopeId : Bool :=
  value ≠ "" && decide (value.utf8ByteSize ≤ 256) && value ≠ "." && value ≠ ".." &&
    !value.toList.any (fun letter => letter = '/' || letter = '\\') &&
    !value.toList.any isControl && !reservedSentinel.toList.isPrefixOf value.toList

/-- Why `validate_scope_id` refuses a string, the first reason it finds. -/
def scopeIdRefusal : Option String :=
  if value = "" then some "must not be empty"
  else if value.utf8ByteSize > 256 then some "must be at most 256 bytes"
  else if value = "." ∨ value = ".." then some "dot segments are not allowed"
  else if value.toList.any (fun letter => letter = '/' || letter = '\\') then
    some "path separators are not allowed"
  else if value.toList.any isControl then some "NUL/control characters are not allowed"
  else if reservedSentinel.toList.isPrefixOf value.toList then
    some "the `__ironclaw_` prefix is reserved for host sentinel identities"
  else none

theorem scopeIdRefusal_eq_none : scopeIdRefusal value = none ↔ validateScopeId value = true := by
  unfold scopeIdRefusal validateScopeId
  grind

/-- The constructors of scope identifiers: the string itself, or the text of the error. -/
def newScopeId (kind value : String) : Except String String :=
  match scopeIdRefusal value with
  | none => .ok value
  | some reason => .error ("invalid " ++ kind ++ " id '" ++ value ++ "': " ++ reason)

theorem newScopeId_eq_ok {kind value id : String} (accepted : newScopeId kind value = .ok id) :
    id = value ∧ validateScopeId value = true := by
  unfold newScopeId at accepted
  split at accepted
  next passed =>
    cases accepted
    exact ⟨rfl, (scopeIdRefusal_eq_none value).mp passed⟩
  · cases accepted

theorem isPart_of_validateScopeId {value : String} (valid : validateScopeId value = true) :
    IsPart value.toList := by
  simp only [validateScopeId, Bool.and_eq_true, Bool.not_eq_true', decide_eq_true_eq,
    List.any_eq_false, Bool.or_eq_true, not_or] at valid
  obtain ⟨⟨⟨⟨⟨⟨present, _⟩, notDot⟩, notDots⟩, noSeparator⟩, noControl⟩, _⟩ := valid
  refine ⟨?_, ?_, ?_, fun slash => (noSeparator '/' slash).1 rfl, ?_⟩
  · intro empty
    exact present (String.toList_injective empty)
  · intro dot
    exact notDot (String.toList_injective dot)
  · intro dots
    exact notDots (String.toList_injective dots)
  · rw [List.all_eq_true]
    intro letter held
    have plain := (noSeparator letter held).2
    have uncontrolled := noControl letter held
    simp [isPathLetter, plain, uncontrolled]

namespace ResourceScope

variable (scope : ResourceScope)

/-- The identifiers below the user pass the check. -/
def narrowIdsReadable : Bool :=
  scope.agentId.all (fun id => validateScopeId id.value) &&
    scope.projectId.all (fun id => validateScopeId id.value) &&
    scope.missionId.all (fun id => validateScopeId id.value) &&
    scope.threadId.all (fun id => validateScopeId id.value)

/-- Whether a scope is read back from the JSON it is written as. -/
def readable : Bool :=
  (scope.tenantId.value = systemReservedId || validateScopeId scope.tenantId.value) &&
    (scope.userId.value = systemReservedId || scope.userId.value = tenantSharedManagedUserId ||
      validateScopeId scope.userId.value) &&
    scope.narrowIdsReadable

/-- Whether `StrictResourceScope` reads a scope back: reserved identifiers are refused. -/
def strictlyReadable : Bool :=
  validateScopeId scope.tenantId.value && validateScopeId scope.userId.value &&
    scope.narrowIdsReadable

def system (invocationId : InvocationId) : ResourceScope where
  tenantId := ⟨systemReservedId⟩
  userId := ⟨systemReservedId⟩
  agentId := none
  projectId := none
  missionId := none
  threadId := none
  invocationId

end ResourceScope

end Ironclaw.HostApi
