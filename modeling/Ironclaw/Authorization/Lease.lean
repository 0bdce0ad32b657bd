import Mathlib.Logic.Basic
import Ironclaw.HostApi.Scope

/-!
# Capability leases

A lease is issued from an approval and spent by invocations.  The transitions below
are the ones both lease stores delegate to; the clock reading is an argument.
-/

namespace Ironclaw.Authorization

open HostApi

/-- Nanoseconds since the Unix epoch. -/
abbrev Timestamp := Int

inductive CapabilityLeaseStatus where
  | active
  | claimed
  | dispatching
  | consumed
  | revoked
  deriving DecidableEq

/-- A lease with what its lookups and transitions read of its grant. -/
structure CapabilityLease where
  grantId : CapabilityGrantId
  capability : CapabilityId
  expiresAt : Option Timestamp
  maxInvocations : Option Nat
  invocationFingerprint : Option InvocationFingerprint
  status : CapabilityLeaseStatus
  deriving DecidableEq

inductive CapabilityLeaseError where
  | unknownLease (leaseId : CapabilityGrantId)
  | expiredLease (leaseId : CapabilityGrantId)
  | exhaustedLease (leaseId : CapabilityGrantId)
  | unclaimedFingerprintLease (leaseId : CapabilityGrantId)
  | fingerprintMismatch (leaseId : CapabilityGrantId)
  | inactiveLease (leaseId : CapabilityGrantId) (status : CapabilityLeaseStatus)
  | persistence (reason : String)
  | versionMismatch
  | casExhausted

namespace CapabilityLease

variable (lease : CapabilityLease) (now : Timestamp)

def isExpired : Bool := lease.expiresAt.any fun expiresAt => expiresAt ≤ now

def ensureNotExpiredOrExhausted : Except CapabilityLeaseError Unit :=
  if lease.isExpired now then .error (.expiredLease lease.grantId)
  else if lease.maxInvocations = some 0 then .error (.exhaustedLease lease.grantId)
  else .ok ()

variable (fingerprint : InvocationFingerprint)

def ensureClaimable (now : Timestamp) : Except CapabilityLeaseError Unit :=
  if lease.status ≠ .active then .error (.inactiveLease lease.grantId lease.status)
  else if lease.invocationFingerprint ≠ some fingerprint then
    .error (.fingerprintMismatch lease.grantId)
  else lease.ensureNotExpiredOrExhausted now

/-- The statuses of a lease that a dispatch holds. -/
def isClaimed : Bool :=
  match lease.status with
  | .claimed | .dispatching => true
  | _ => false

def ensureConsumable : Except CapabilityLeaseError Unit :=
  match lease.status with
  | .consumed => .error (.exhaustedLease lease.grantId)
  | .revoked => .error (.inactiveLease lease.grantId lease.status)
  | _ =>
    if lease.invocationFingerprint.isSome && !lease.isClaimed then
      .error (.unclaimedFingerprintLease lease.grantId)
    else lease.ensureNotExpiredOrExhausted now

/-! ## Transitions -/

def claim (now : Timestamp) : Except CapabilityLeaseError CapabilityLease := do
  lease.ensureClaimable fingerprint now
  .ok { lease with status := .claimed }

/-- The lease after a consumption that was allowed. -/
def spent : CapabilityLease :=
  if lease.invocationFingerprint.isSome then
    { lease with
      maxInvocations := lease.maxInvocations.map fun _ => 0
      status := .consumed }
  else
    match lease.maxInvocations with
    | some remaining =>
      { lease with
        maxInvocations := some (remaining - 1)
        status :=
          if remaining - 1 = 0 then .consumed
          else if lease.isClaimed then .active else lease.status }
    | none => { lease with status := if lease.isClaimed then .active else lease.status }

def consume : Except CapabilityLeaseError CapabilityLease := do
  lease.ensureConsumable now
  .ok lease.spent

def beginDispatchClaimed (now : Timestamp) : Except CapabilityLeaseError CapabilityLease :=
  if lease.status ≠ .claimed then .error (.inactiveLease lease.grantId lease.status)
  else if lease.invocationFingerprint ≠ some fingerprint then
    .error (.fingerprintMismatch lease.grantId)
  else do
    lease.ensureNotExpiredOrExhausted now
    .ok { lease with status := .dispatching }

def abortDispatchClaimed : Except CapabilityLeaseError CapabilityLease :=
  match lease.status with
  | .dispatching => .ok { lease with status := .claimed }
  | .claimed => .ok lease
  | _ => .error (.inactiveLease lease.grantId lease.status)

/-- Revoking never fails and may be repeated. -/
def revoke : CapabilityLease := { lease with status := .revoked }

end CapabilityLease

open CapabilityLease

inductive LeaseOp where
  | claim (fingerprint : InvocationFingerprint)
  | beginDispatchClaimed (fingerprint : InvocationFingerprint)
  | abortDispatchClaimed
  | consume
  | revoke
  deriving DecidableEq

/-- The mutation a call hands to `update_lease_cas`. -/
def LeaseOp.mutate (now : Timestamp) (op : LeaseOp) (lease : CapabilityLease) :
    Except CapabilityLeaseError CapabilityLease :=
  match op with
  | .claim fingerprint => lease.claim fingerprint now
  | .beginDispatchClaimed fingerprint => lease.beginDispatchClaimed fingerprint now
  | .abortDispatchClaimed => lease.abortDispatchClaimed
  | .consume => lease.consume now
  | .revoke => .ok lease.revoke

/-! ## What a successful call says about the lease -/

namespace CapabilityLease

variable {lease after : CapabilityLease} {now : Timestamp} {fingerprint : InvocationFingerprint}

theorem not_exhausted (usable : lease.ensureNotExpiredOrExhausted now = .ok ()) :
    lease.maxInvocations ≠ some 0 := by
  revert usable
  fun_cases lease.ensureNotExpiredOrExhausted now <;> rintro ⟨⟩
  assumption

theorem claim_ok (claimed : lease.claim fingerprint now = .ok after) :
    lease.status = .active ∧ lease.invocationFingerprint = some fingerprint ∧
      after = { lease with status := .claimed } := by
  simp only [claim, bind, Except.bind] at claimed
  split at claimed
  · cases claimed
  rename_i passed
  cases claimed
  revert passed
  fun_cases lease.ensureClaimable fingerprint now <;> try rintro ⟨⟩
  next active matching => exact fun _ => ⟨not_not.mp active, not_not.mp matching, rfl⟩

theorem beginDispatchClaimed_ok (begun : lease.beginDispatchClaimed fingerprint now = .ok after) :
    lease.status = .claimed ∧ lease.invocationFingerprint = some fingerprint ∧
      after = { lease with status := .dispatching } := by
  simp only [beginDispatchClaimed, bind, Except.bind] at begun
  split at begun
  · cases begun
  rename_i claimed
  split at begun
  · cases begun
  rename_i matching
  split at begun
  · cases begun
  · cases begun
    exact ⟨not_not.mp claimed, not_not.mp matching, rfl⟩

theorem abortDispatchClaimed_ok (aborted : lease.abortDispatchClaimed = .ok after) :
    (lease.status = .dispatching ∨ lease.status = .claimed) ∧
      after = { lease with status := .claimed } := by
  unfold abortDispatchClaimed at aborted
  split at aborted
  next dispatching =>
    cases aborted
    exact ⟨.inl dispatching, rfl⟩
  next claimed =>
    cases aborted
    refine ⟨.inr claimed, ?_⟩
    rw [← claimed]
  · cases aborted

theorem consume_ok (consumed : lease.consume now = .ok after) :
    lease.status ≠ .consumed ∧ lease.status ≠ .revoked ∧ lease.maxInvocations ≠ some 0 ∧
      (lease.invocationFingerprint.isSome = true → lease.isClaimed = true) ∧
      after = lease.spent := by
  simp only [consume, bind, Except.bind] at consumed
  split at consumed
  · cases consumed
  rename_i passed
  cases consumed
  revert passed
  fun_cases lease.ensureConsumable now <;> try rintro ⟨⟩
  next held notConsumed notRevoked =>
    refine fun passed => ⟨notConsumed, notRevoked, not_exhausted passed, ?_, rfl⟩
    intro fingerprinted
    simpa [fingerprinted] using held

end CapabilityLease

theorem LeaseOp.mutate_keeps {now : Timestamp} {op : LeaseOp} {lease after : CapabilityLease}
    (ran : op.mutate now lease = .ok after) :
    after.grantId = lease.grantId ∧ after.invocationFingerprint = lease.invocationFingerprint := by
  cases op with
  | claim fingerprint =>
    rw [(claim_ok ran).2.2]
    exact ⟨rfl, rfl⟩
  | beginDispatchClaimed =>
    rw [(beginDispatchClaimed_ok ran).2.2]
    exact ⟨rfl, rfl⟩
  | abortDispatchClaimed =>
    rw [(abortDispatchClaimed_ok ran).2]
    exact ⟨rfl, rfl⟩
  | consume =>
    obtain ⟨_, _, _, _, rfl⟩ := consume_ok ran
    unfold spent
    split
    · exact ⟨rfl, rfl⟩
    · split <;> exact ⟨rfl, rfl⟩
  | revoke =>
    cases ran
    exact ⟨rfl, rfl⟩

end Ironclaw.Authorization
