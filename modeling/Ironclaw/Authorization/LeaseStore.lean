import Ironclaw.Authorization.Lease
import Ironclaw.Lib.Cas

/-!
# Leases on a shared filesystem

Store instances in different processes change one lease record by compare-and-set.
Because the successful calls are serializable, what a lease allows is decided by its
transitions alone.
-/

namespace Ironclaw.Authorization

open Lib
open CapabilityLease (abortDispatchClaimed_ok beginDispatchClaimed_ok claim_ok consume_ok)
open List

def casRetryAttempts : Nat := 3

/-- Any number of callers of `update_lease_cas` on one issued lease. -/
def filesystemLeaseStore (ι : Type) [DecidableEq ι] (issued : CapabilityLease) :
    System (CasState ι CapabilityLease LeaseOp) (CasLabel ι LeaseOp Timestamp) :=
  casSystem LeaseOp.mutate casRetryAttempts issued

namespace LeaseOp

variable {now : Timestamp} {op : LeaseOp} {lease after issued last : CapabilityLease}
  {log : List LeaseOp}

theorem serial_fingerprint (serial : Serial mutate issued log last) :
    last.invocationFingerprint = issued.invocationFingerprint := by
  induction serial with
  | nil => rfl
  | snoc _ ran ih => rw [(mutate_keeps ran).2, ih]

/-- A lease that is spent or withdrawn. -/
def Closed (lease : CapabilityLease) : Prop := lease.status = .consumed ∨ lease.status = .revoked

theorem closed_of_closed (ran : op.mutate now lease = .ok after) (closed : Closed lease) :
    op = .revoke ∧ Closed after := by
  cases op with
  | claim => simp [Closed, (claim_ok ran).1] at closed
  | beginDispatchClaimed => simp [Closed, (beginDispatchClaimed_ok ran).1] at closed
  | abortDispatchClaimed =>
    rcases (abortDispatchClaimed_ok ran).1 with status | status <;>
      simp [Closed, status] at closed
  | consume =>
    obtain ⟨unspent, valid, _⟩ := consume_ok ran
    exact absurd closed (not_or.mpr ⟨unspent, valid⟩)
  | revoke =>
    cases ran
    exact ⟨rfl, .inr rfl⟩

theorem all_revoke_of_closed (serial : Serial mutate issued log last) (closed : Closed issued) :
    Closed last ∧ ∀ op ∈ log, op = .revoke := by
  induction serial with
  | nil => exact ⟨closed, by simp⟩
  | snoc _ ran ih =>
    obtain ⟨still, earlier⟩ := ih
    obtain ⟨rfl, closed⟩ := closed_of_closed ran still
    refine ⟨closed, fun op listed => ?_⟩
    rcases mem_append.mp listed with old | new
    · exact earlier op old
    · exact mem_singleton.mp new

/-! ## Consumption -/

theorem consumed_at_most_once (fingerprinted : issued.invocationFingerprint.isSome = true)
    (serial : Serial mutate issued log last) :
    log.count .consume ≤ 1 ∧ (log.count .consume = 1 → Closed last) := by
  induction serial with
  | nil => simp
  | @snoc _ _ log op _ earlier ran ih =>
    obtain ⟨_, closed⟩ := ih
    rw [count_append]
    by_cases spent : log.count .consume = 1
    · obtain ⟨rfl, still⟩ := closed_of_closed ran (closed spent)
      exact ⟨by simp [spent], fun _ => still⟩
    · have none : log.count .consume = 0 := by omega
      rw [none]
      by_cases same : op = .consume
      · subst same
        refine ⟨by simp, fun _ => ?_⟩
        obtain ⟨_, _, _, _, rfl⟩ := consume_ok ran
        have kept := serial_fingerprint earlier
        unfold CapabilityLease.spent
        rw [kept, if_pos fingerprinted]
        exact .inl rfl
      · have absent : count .consume [op] = 0 :=
          count_eq_zero.mpr (by simpa using Ne.symm same)
        rw [absent]
        exact ⟨by omega, by omega⟩

theorem consumed_within_budget {budget : Nat} (plain : issued.invocationFingerprint = none)
    (granted : issued.maxInvocations = some budget) (serial : Serial mutate issued log last) :
    ∃ remaining, last.maxInvocations = some remaining ∧
      log.count .consume + remaining = budget := by
  induction serial with
  | nil => exact ⟨budget, granted, by simp⟩
  | @snoc _ last _ op _ earlier ran ih =>
    obtain ⟨remaining, left, balance⟩ := ih
    have kept := (serial_fingerprint earlier).trans plain
    rw [count_append]
    cases op with
    | claim fingerprint =>
      rw [(claim_ok ran).2.1] at kept
      cases kept
    | beginDispatchClaimed =>
      rw [(beginDispatchClaimed_ok ran).2.1] at kept
      cases kept
    | abortDispatchClaimed =>
      rw [(abortDispatchClaimed_ok ran).2]
      exact ⟨remaining, left, by simpa using balance⟩
    | consume =>
      obtain ⟨_, _, usable, _, rfl⟩ := consume_ok ran
      rw [left] at usable
      have positive : remaining ≠ 0 := fun zero => usable (congrArg some zero)
      refine ⟨remaining - 1, by simp [CapabilityLease.spent, kept, left], ?_⟩
      simp
      omega
    | revoke =>
      cases ran
      exact ⟨remaining, left, by simpa using balance⟩

/-! ## Dispatching -/

/-- The last dispatch that began has not been aborted. -/
def Outstanding (log : List LeaseOp) : Prop :=
  ∃ before after fingerprint, log = before ++ .beginDispatchClaimed fingerprint :: after ∧
    .abortDispatchClaimed ∉ after

theorem status_of_outstanding (serial : Serial mutate issued log last)
    (outstanding : Outstanding log) : last.status = .dispatching ∨ Closed last := by
  obtain ⟨_, _, fingerprint, rfl, unaborted⟩ := outstanding
  obtain ⟨claimed, _, _, _, ran, rest⟩ := serial.split
  obtain ⟨_, matching, rfl⟩ := beginDispatchClaimed_ok ran
  clear ran serial
  have fingerprinted : (claimed.invocationFingerprint).isSome = true := by rw [matching]; rfl
  induction rest with
  | nil => exact .inl rfl
  | @snoc _ _ _ op _ earlier ran ih =>
    have quiet : op ≠ .abortDispatchClaimed := fun same => unaborted (by simp [same])
    rcases ih (fun listed => unaborted (mem_append_left _ listed)) with
      dispatching | closed
    · cases op with
      | claim =>
        rw [(claim_ok ran).1] at dispatching
        cases dispatching
      | beginDispatchClaimed =>
        rw [(beginDispatchClaimed_ok ran).1] at dispatching
        cases dispatching
      | abortDispatchClaimed => exact absurd rfl quiet
      | consume =>
        obtain ⟨_, _, _, _, rfl⟩ := consume_ok ran
        have kept := serial_fingerprint earlier
        unfold CapabilityLease.spent
        rw [kept, if_pos fingerprinted]
        exact .inr (.inl rfl)
      | revoke =>
        cases ran
        exact .inr (.inr rfl)
    · exact .inr (closed_of_closed ran closed).2

end LeaseOp

section

open LeaseOp

/-- Under every interleaving of reads and writes an issued lease is spent at most as it was
granted: once if fingerprinted, at most its budget otherwise; two dispatches begin only
with an abort between them, and nothing but a revocation succeeds after a revocation. -/
theorem lease_spent_at_most_as_granted {ι : Type} [DecidableEq ι] (issued : CapabilityLease)
    {state : CasState ι CapabilityLease LeaseOp}
    (reached : (filesystemLeaseStore ι issued).Reachable System.anyStep state) :
    (issued.invocationFingerprint.isSome = true → state.log.count .consume ≤ 1) ∧
      (∀ budget, issued.invocationFingerprint = none → issued.maxInvocations = some budget →
        state.log.count .consume ≤ budget) ∧
      (∀ before between after first second, state.log = before ++ .beginDispatchClaimed first ::
          (between ++ .beginDispatchClaimed second :: after) → .abortDispatchClaimed ∈ between) ∧
      ∀ before after, state.log = before ++ .revoke :: after → ∀ op ∈ after, op = .revoke := by
  have serial := casSystem_serial _ _ reached
  refine ⟨?_, ?_, ?_, ?_⟩
  · intro fingerprinted
    exact (consumed_at_most_once fingerprinted serial).1
  · intro budget plain granted
    obtain ⟨_, _, _⟩ := consumed_within_budget plain granted serial
    omega
  · intro before between after first second shape
    rw [shape, ← cons_append, ← append_assoc] at serial
    obtain ⟨_, _, _, earlier, ran, _⟩ := serial.split
    by_contra unaborted
    have status := status_of_outstanding earlier ⟨before, between, first, rfl, unaborted⟩
    rw [Closed, (beginDispatchClaimed_ok ran).1] at status
    simp at status
  · intro before after shape
    rw [shape] at serial
    obtain ⟨_, _, _, _, ran, rest⟩ := serial.split
    cases ran
    exact (all_revoke_of_closed rest (.inr rfl)).2

end

/-- A one-shot lease as an approval issues it. -/
def oneShotLease : CapabilityLease where
  grantId := ⟨1⟩
  capability := ⟨"mail.send"⟩
  expiresAt := none
  maxInvocations := some 1
  invocationFingerprint := some ⟨"invocation"⟩
  status := .active

/-- Two instances read the claimed lease before either writes; the second loses the race,
reads again and is refused. -/
def raceLabels : List (CasLabel Bool LeaseOp Timestamp) :=
  [.call false (.claim ⟨"invocation"⟩), .read false 0, .write false, .call false .consume,
    .call true .consume, .read false 0, .read true 0, .write false, .write true, .read true 0]

def racedConsumption : CasState Bool CapabilityLease LeaseOp :=
  raceLabels.foldl (CasState.apply LeaseOp.mutate casRetryAttempts)
    ⟨⟨oneShotLease, 0⟩, fun _ => .idle, []⟩

theorem raced_lease_consumed_once : racedConsumption.log = [.claim ⟨"invocation"⟩, .consume] ∧
      racedConsumption.log.count .consume ≤ 1 := by
  have first : (filesystemLeaseStore Bool oneShotLease).Reachable System.anyStep
      ⟨⟨oneShotLease, 0⟩, fun _ => .idle, []⟩ :=
    .start ⟨rfl, fun _ => rfl, rfl⟩
  exact ⟨by decide, (lease_spent_at_most_as_granted oneShotLease (first.follow raceLabels)).1 rfl⟩

end Ironclaw.Authorization
