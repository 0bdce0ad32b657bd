import Ironclaw.Authorization.Lease
import Ironclaw.HostApi.Scope
import Ironclaw.Lib.System
import Ironclaw.Lib.Table

/-!
# Leases on secrets that expire

A lease copies the expiry of its secret when it is issued, and the material is read again when
the lease is consumed.  A secret that was replaced in between may have expired since.
-/

namespace Ironclaw.Secrets

open Authorization HostApi Lib Table

structure SecretHandle where
  value : String
  deriving DecidableEq

structure SecretLeaseId where
  uuid : Nat
  deriving DecidableEq

inductive SecretLeaseStatus where
  | active
  | consumed
  | revoked
  | expired
  deriving DecidableEq

/-- A stored secret; `μ` is the material. -/
structure StoredSecret (μ : Type) where
  material : μ
  expiresAt : Option Timestamp
  deriving DecidableEq

structure StoredLease where
  scope : ResourceScope
  handle : SecretHandle
  status : SecretLeaseStatus
  leaseExpiresAt : Timestamp
  secretExpiresAt : Option Timestamp

inductive SecretStoreError where
  | unknownSecret (scope : ResourceScope) (handle : SecretHandle)
  | unknownLease (scope : ResourceScope) (leaseId : SecretLeaseId)
  | leaseConsumed (leaseId : SecretLeaseId)
  | leaseRevoked (leaseId : SecretLeaseId)
  | leaseExpired (leaseId : SecretLeaseId)
  | secretExpired

/-- Secrets and leases are kept under their owner. -/
abbrev SecretOwner : Type := TenantId × UserId × Option AgentId × Option ProjectId

def secretOwner (scope : ResourceScope) : SecretOwner :=
  (scope.tenantId, scope.userId, scope.agentId, scope.projectId)

/-- The files of the store.  `released` is what was consumed and when. -/
structure SecretStore (μ : Type) where
  secrets : Table (SecretOwner × SecretHandle) (StoredSecret μ)
  leases : Table (SecretOwner × SecretLeaseId) StoredLease
  released : List (StoredSecret μ × Timestamp)

def StoredLease.effectiveStatus (stored : StoredLease) (now : Timestamp) : SecretLeaseStatus :=
  match stored.status with
  | .active =>
    if stored.leaseExpiresAt ≤ now ∨ stored.secretExpiresAt.any (· ≤ now) then .expired
    else .active
  | other => other

variable {μ : Type}

namespace SecretStore

variable (store : SecretStore μ) (scope : ResourceScope)

def put (handle : SecretHandle) (secret : StoredSecret μ) : SecretStore μ :=
  { store with secrets := store.secrets.insert (secretOwner scope, handle) secret }

def delete (handle : SecretHandle) : SecretStore μ :=
  { store with secrets := store.secrets.remove (secretOwner scope, handle) }

/-- `lease_once` reads the clock for the check and once more for the end of the lease. -/
def leaseOnce (ttl : Nat) (scope : ResourceScope) (handle : SecretHandle)
    (leaseId : SecretLeaseId) (checked issued : Timestamp) :
    Except SecretStoreError StoredLease × SecretStore μ :=
  match store.secrets.get (secretOwner scope, handle) with
  | none => (.error (.unknownSecret scope handle), store)
  | some stored =>
    if stored.expiresAt.any (· ≤ checked) then (.error .secretExpired, store)
    else
      let lease : StoredLease := ⟨scope, handle, .active, issued + ttl, stored.expiresAt⟩
      (.ok lease, { store with leases := store.leases.insert (secretOwner scope, leaseId) lease })

/-- `consume`; the whole record of the material it returns is shown. -/
def consume (leaseId : SecretLeaseId)
    (now : Timestamp) : Except SecretStoreError (StoredSecret μ) × SecretStore μ :=
  let mark (lease : StoredLease) (status : SecretLeaseStatus) : SecretStore μ :=
    { store with
      leases := store.leases.insert (secretOwner scope, leaseId) { lease with status } }
  match store.leases.get (secretOwner scope, leaseId) with
  | none => (.error (.unknownLease scope leaseId), store)
  | some lease =>
    if lease.scope ≠ scope then (.error (.unknownLease scope leaseId), store)
    else
      match lease.effectiveStatus now with
      | .consumed => (.error (.leaseConsumed leaseId), store)
      | .revoked => (.error (.leaseRevoked leaseId), store)
      | .expired => (.error (.leaseExpired leaseId), mark lease .expired)
      | .active =>
        match store.secrets.get (secretOwner scope, lease.handle) with
        | none => (.error (.unknownSecret scope lease.handle), store)
        | some stored =>
          (.ok stored, { mark lease .consumed with released := (stored, now) :: store.released })

end SecretStore

inductive SecretCall (μ : Type) where
  | put (scope : ResourceScope) (handle : SecretHandle) (secret : StoredSecret μ)
  | delete (scope : ResourceScope) (handle : SecretHandle)
  | leaseOnce (scope : ResourceScope) (handle : SecretHandle) (leaseId : SecretLeaseId)
    (checked issued : Timestamp)
  | consume (scope : ResourceScope) (leaseId : SecretLeaseId) (now : Timestamp)

def SecretStore.apply (ttl : Nat) (store : SecretStore μ) : SecretCall μ → SecretStore μ
  | .put scope handle secret => store.put scope handle secret
  | .delete scope handle => store.delete scope handle
  | .leaseOnce scope handle leaseId checked issued =>
    (store.leaseOnce ttl scope handle leaseId checked issued).2
  | .consume scope leaseId now => (store.consume scope leaseId now).2

/-- Calls on a store that is empty at first, with any readings of the clock. -/
def secretRuns (μ : Type) (ttl : Nat) : System (SecretStore μ) (SecretCall μ) :=
  .ofFunction (fun store => store = ⟨.empty, .empty, []⟩) (SecretStore.apply ttl)

variable (store : SecretStore μ)

/-- A secret is not replaced by one that expires while a lease on it is still active. -/
def OutlivesLeases : SecretCall μ → Prop
  | .put scope handle secret => ∀ expiry ∈ secret.expiresAt, ∀ leaseId lease,
      store.leases.get (secretOwner scope, leaseId) = some lease → lease.handle = handle →
      lease.effectiveStatus expiry ≠ .active
  | _ => True

/-! ## What is released has not expired -/

/-- What was released had not expired. -/
def SecretStore.Fresh : Prop :=
  ∀ secret now, (secret, now) ∈ store.released → ∀ expiry ∈ secret.expiresAt, now < expiry

/-- No lease is active when the secret it is on expires. -/
def SecretStore.Covered : Prop :=
  ∀ owner leaseId lease secret, store.leases.get (owner, leaseId) = some lease →
    store.secrets.get (owner, lease.handle) = some secret →
    ∀ expiry ∈ secret.expiresAt, lease.effectiveStatus expiry ≠ .active

theorem StoredLease.active_of_le {lease : StoredLease} {earlier later : Timestamp}
    (order : earlier ≤ later) (active : lease.effectiveStatus later = .active) :
    lease.effectiveStatus earlier = .active := by
  unfold effectiveStatus at *
  split at active
  · split at active
    · cases active
    next lasting =>
      refine if_neg fun ended => lasting (ended.imp order.trans' fun expired => ?_)
      obtain ⟨expiry, given, passed⟩ := (Option.any_eq_true _ _).mp expired
      exact (Option.any_eq_true _ _).mpr
        ⟨expiry, given, decide_eq_true ((of_decide_eq_true passed).trans order)⟩
  · exact active

namespace SecretStore

variable {store after : SecretStore μ}

theorem Covered.put (covered : store.Covered) {scope : ResourceScope} {handle : SecretHandle}
    {secret : StoredSecret μ} (outlives : OutlivesLeases store (.put scope handle secret)) :
    (store.put scope handle secret).Covered := by
  intro owner leaseId lease found leased stored
  rw [SecretStore.put, get_insert] at stored
  split at stored
  next same =>
    cases same
    cases stored
    exact fun expiry given => outlives expiry given leaseId lease leased rfl
  · exact covered owner leaseId lease found leased stored

theorem Covered.lease (covered : store.Covered) {key : SecretOwner × SecretLeaseId}
    {lease : StoredLease} (leases : after.leases = store.leases.insert key lease)
    (secrets : after.secrets = store.secrets)
    (ends : ∀ secret, store.secrets.get (key.1, lease.handle) = some secret →
      ∀ expiry ∈ secret.expiresAt, lease.effectiveStatus expiry ≠ .active) : after.Covered := by
  intro owner leaseId other secret found stored
  rw [leases, get_insert] at found
  rw [secrets] at stored
  split at found
  next same =>
    cases same
    cases found
    exact ends secret stored
  · exact covered owner leaseId other secret found stored

theorem apply_keeps (ttl : Nat) (covered : store.Covered) (fresh : store.Fresh)
    (call : SecretCall μ) (outlives : OutlivesLeases store call) :
    (store.apply ttl call).Covered ∧ (store.apply ttl call).Fresh := by
  cases call with
  | put => exact ⟨covered.put outlives, fresh⟩
  | delete =>
    exact ⟨fun owner leaseId lease secret leased stored =>
      covered owner leaseId lease secret leased (get_of_remove stored), fresh⟩
  | leaseOnce scope handle leaseId checked issued =>
    rw [SecretStore.apply]
    fun_cases leaseOnce store ttl scope handle leaseId checked issued <;>
      try exact ⟨covered, fresh⟩
    next stored found _ lease =>
      refine ⟨covered.lease rfl rfl fun secret read expiry given => ?_, fresh⟩
      cases found.symm.trans read
      simp [lease, StoredLease.effectiveStatus, show stored.expiresAt = some expiry from given]
  | consume scope leaseId now =>
    rw [SecretStore.apply]
    fun_cases consume store scope leaseId now <;> try exact ⟨covered, fresh⟩
    next => exact ⟨covered.lease rfl rfl fun _ _ _ _ => nofun, fresh⟩
    next lease found _ effective stored read =>
      refine ⟨covered.lease rfl rfl ?_, ?_⟩
      · exact fun _ _ _ _ => nofun
      rintro secret time (_ | ⟨_, earlier⟩) expiry given
      · exact lt_of_not_ge fun reached =>
          covered _ leaseId lease stored found read expiry given
            (lease.active_of_le reached effective)
      · exact fresh secret time earlier expiry given

end SecretStore

/-- Runs in which no secret is replaced by one that expires under a lease release no secret
that has expired. -/
theorem released_unexpired {ttl : Nat} {store : SecretStore μ}
    (reached : (secretRuns μ ttl).Reachable OutlivesLeases store) : store.Fresh := by
  refine (reached.invariant (fun store => store.Covered ∧ store.Fresh) ?_ ?_).2
  · rintro _ rfl
    exact ⟨fun _ _ _ _ found => (nomatch found), nofun⟩
  · rintro before call _ ⟨covered, fresh⟩ outlives rfl
    exact before.apply_keeps ttl covered fresh call outlives

def sampleScope : ResourceScope := ⟨⟨"tenant"⟩, ⟨"user"⟩, none, none, none, none, ⟨0⟩⟩

/-- A secret that expires at 10 is leased at 0 and consumed at 5, after calls in between. -/
def consumedAfter (between : List (SecretCall Nat)) : List (SecretCall Nat) :=
  .put sampleScope ⟨"token"⟩ ⟨1, some 10⟩ :: .leaseOnce sampleScope ⟨"token"⟩ ⟨7⟩ 0 0 ::
    (between ++ [.consume sampleScope ⟨7⟩ 5])

/-- Another owner stores a secret that expires first, and the leased one is replaced by one
that expires after the lease. -/
def laterReplacement : List (SecretCall Nat) :=
  [.put { sampleScope with userId := ⟨"other"⟩ } ⟨"token"⟩ ⟨3, some 4⟩,
    .put sampleScope ⟨"token"⟩ ⟨2, some 20⟩]

theorem later_replacement_unexpired :
    let store := (consumedAfter laterReplacement).foldl (SecretStore.apply 300) ⟨.empty, .empty, []⟩
    store.released = [(⟨2, some 20⟩, 5)] ∧ store.Fresh := by
  have start : (secretRuns Nat 300).Reachable OutlivesLeases ⟨.empty, .empty, []⟩ := .start rfl
  have reached := start.followAllowed (consumedAfter laterReplacement)
    ⟨nofun, trivial, ?_, ?_, trivial, trivial⟩
  · exact ⟨by decide, released_unexpired reached⟩
  · intro _ _ leaseId lease found
    rw [show SecretStore.leases _ = Table.insert .empty _ _ from rfl, Table.get_insert] at found
    split at found
    next same => exact absurd (Prod.mk.inj same).1 (by decide)
    · cases found
  · rintro _ ⟨⟩ leaseId lease found _
    rw [show SecretStore.leases _ = Table.insert .empty _ _ from rfl, Table.get_insert] at found
    split at found
    · cases found
      decide
    · cases found

/-- The replacement expired at 3 and is released at 5. -/
theorem expired_replacement_released :
    let store := (consumedAfter [.put sampleScope ⟨"token"⟩ ⟨2, some 3⟩]).foldl
      (SecretStore.apply 300) ⟨.empty, .empty, []⟩
    (secretRuns Nat 300).Reachable System.anyStep store ∧ ¬ store.Fresh := by
  intro store
  have released : (⟨2, some 3⟩, 5) ∈ store.released := by decide
  exact ⟨(System.Reachable.start rfl).follow _,
    fun fresh => absurd (fresh _ _ released 3 rfl) (by decide)⟩

end Ironclaw.Secrets
