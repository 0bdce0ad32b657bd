import Ironclaw.Lib.Locking
import Ironclaw.Resources.Authority
import Ironclaw.Resources.Journal

/-!
# Replay reproduces the authority

Calls of the persistent governor run at once.  Each takes the commit gates of its accounts,
the reservations and the shards, works on a projection, writes it back and hands its delta
to the journal before it lets go of its locks.  The deltas are therefore in an order in
which the calls could have come one at a time, and replay meets every operation in the
state it was done in.
-/

namespace Ironclaw.Resources

open HostApi Lib GovernorJob ResourceAuthority ResourceGovernorDelta ResourceAccount Option
open List

inductive AuthorityLock where
  | commit (shard : Fin accountShards)
  | reservations
  | shard (shard : Fin accountShards)
  deriving DecidableEq

/-- The shards of some accounts, in increasing order and without repetition. -/
def shardIndexes [AccountHasher] (accounts : List ResourceAccount) : List (Fin accountShards) :=
  (finRange accountShards).filter fun index => index ∈ accounts.map accountShardIndex

section

variable [platform : Platform]

/-- The accounts that an operation works on; those of a reservation that is closed are looked
up in its record. -/
def ResourceAuthority.accountsFor (authority : ResourceAuthority) :
    ResourceOp → Option (List ResourceAccount)
  | .setLimit account _ => some [account]
  | .reserve scope _ _ => some (cascade scope)
  | .reconcile id _ | .release id => (authority.reservations.get id).map ReservationRecord.accounts

theorem ResourceAuthority.accountsFor_nodup {authority : ResourceAuthority} {op : ResourceOp}
    {accounts : List ResourceAccount} (found : authority.accountsFor op = some accounts) :
    accounts.Nodup := by
  have recorded : ∀ {id}, (authority.reservations.get id).map ReservationRecord.accounts =
      some accounts → accounts.Nodup := by
    intro id found
    obtain ⟨record, _, same⟩ := map_eq_some_iff.mp found
    exact same ▸ record.accounts_nodup
  cases op with
  | setLimit account =>
    cases found
    exact nodup_singleton account
  | reserve scope _ id =>
    cases found
    exact cascade_nodup scope
  | reconcile id | release => exact recorded found

variable [hasher : AccountHasher]

namespace GovernorJob

variable (job : GovernorJob)

/-- The locks of a call in the order it takes them; `set_limit` leaves the reservations
alone. -/
def locks : List AuthorityLock :=
  (shardIndexes job.accounts).map .commit ++ job.op.recordId.toList.map (fun _ => .reservations) ++
    (shardIndexes job.accounts).map .shard

/-- The accounts of the job are those of its operation. -/
def Prepared (authority : ResourceAuthority) : Prop :=
  authority.accountsFor job.op = some job.accounts

/-- What is looked up before the locks are taken. -/
def looks : List ResourceCell :=
  match job.op with
  | .reconcile id _ | .release id => [.record id]
  | _ => []

def delta : ResourceGovernorDelta := .ofOp job.op job.now

end GovernorJob

def ResourceCell.lock : ResourceCell → AuthorityLock
  | .account owner => .shard (accountShardIndex owner)
  | .record _ => .reservations

/-- How the calls of the governor use the authority. -/
def authorityLocking :
    Locking ResourceAuthority ResourceCell AuthorityLock GovernorJob ResourceCell.Value where
  read := cell
  write
  lockOf := ResourceCell.lock
  locks
  cells
  looks
  ready := GovernorJob.Prepared
  change job authority := (job.change authority).map ResourceState.cell

/-! ## Jobs keep to the locks -/

namespace GovernorJob

variable {job other : GovernorJob} {authority : ResourceAuthority}

theorem covered {cell : ResourceCell} (member : cell ∈ job.cells) : cell.lock ∈ job.locks := by
  have touched := mem_cells.mp member
  unfold locks
  cases cell with
  | account =>
    refine mem_append_right _ (mem_map_of_mem ?_)
    simp only [shardIndexes, mem_filter, mem_finRange, true_and, decide_eq_true_eq]
    exact mem_map_of_mem touched
  | record id =>
    have looks : job.op.recordId = some id := touched
    simp [looks, ResourceCell.lock]

theorem Prepared.congr {second : ResourceAuthority} (prepared : job.Prepared authority)
    (same : ∀ cell ∈ job.looks, authority.cell cell = second.cell cell) : job.Prepared second := by
  obtain ⟨op, accounts, _⟩ := job
  have recorded : ∀ {id}, (∀ cell ∈ [ResourceCell.record id], authority.cell cell =
      second.cell cell) → authority.reservations.get id = second.reservations.get id :=
    fun same => same _ mem_cons_self
  cases op with
  | setLimit | reserve => exact prepared
  | reconcile | release =>
    exact (congrArg (Option.map ReservationRecord.accounts) (recorded same)).symm.trans prepared

theorem Prepared.worksOn {state : ResourceState} (prepared : job.Prepared authority)
    (shows : authority.Shows state) : job.op.WorksOn state job.accounts := by
  obtain ⟨op, accounts, _⟩ := job
  have recorded : ∀ {id}, (authority.reservations.get id).map ReservationRecord.accounts =
      some accounts → ∀ record ∈ state.reservations.get id, record.accounts = accounts := by
    intro id prepared record found
    have shown : authority.reservations.get id = some record := (shows (.record id)).trans found
    rw [shown] at prepared
    exact some.inj prepared
  cases op with
  | setLimit | reserve => exact (some.inj prepared).symm
  | reconcile | release => exact recorded prepared

theorem accounts_kept (prepared : other.Prepared authority) {after : ResourceState}
    (done : other.change authority = some after) {id : ResourceReservationId}
    {record : ReservationRecord} (found : authority.reservations.get id = some record) :
    ∃ kept, (other.writeBack authority after).reservations.get id = some kept ∧
      kept.accounts = record.accounts := by
  have written : (other.writeBack authority after).reservations.get id =
      if .record id ∈ other.cells then after.reservations.get id
      else authority.reservations.get id := other.cell_writeBack authority after (.record id)
  rw [written]
  split
  next member =>
    have shown : (other.project authority).reservations.get id = some record :=
      (cell_project (accountsFor_nodup prepared) authority member).trans found
    have result : after = (other.work authority).2 := by
      unfold change at done
      split at done
      · exact (some.inj done).symm
      · cases done
    rw [result]
    obtain ⟨kept, stored, sameAccounts, _⟩ := ResourceState.record_kept shown
    exact ⟨kept, stored, sameAccounts⟩
  · exact ⟨record, found, rfl⟩

theorem Prepared.kept (prepared : job.Prepared authority) (others : other.Prepared authority)
    {after : ResourceState} (done : other.change authority = some after) :
    job.Prepared (other.writeBack authority after) := by
  obtain ⟨op, accounts, _⟩ := job
  have recorded : ∀ {id}, (authority.reservations.get id).map ReservationRecord.accounts =
      some accounts → ((other.writeBack authority after).reservations.get id).map
        ReservationRecord.accounts = some accounts := by
    intro _ prepared
    obtain ⟨_, found, same⟩ := map_eq_some_iff.mp prepared
    obtain ⟨_, stored, sameAccounts⟩ := accounts_kept others done found
    rw [stored, ← same, ← sameAccounts]
    rfl
  cases op with
  | setLimit | reserve => exact prepared
  | reconcile | release => exact recorded prepared

end GovernorJob

theorem authorityLocking_lawful : authorityLocking.Lawful where
  read_write_self := cell_write_self
  read_write_of_ne authority _ value _ different := authority.cell_write_of_ne value different
  covered _ _ member := covered member
  change_congr job _ _ same := congrArg (Option.map _) (job.change_congr same)
  ready_congr _ _ _ same prepared := prepared.congr same
  ready_kept job other authority values prepared others done := by
    obtain ⟨_, changed, rfl⟩ := map_eq_some_iff.mp done
    exact prepared.kept others changed

/-! ## Deltas in the order of the log -/

/-- The delta of the job is read back as it was written. -/
def GovernorJob.Survives (job : GovernorJob) : Prop := job.delta.viaJson = some job.delta

theorem replay_runs {start reached : ResourceAuthority} {jobs : List GovernorJob}
    (runs : authorityLocking.Runs start jobs reached) (survive : ∀ job ∈ jobs, job.Survives)
    {first : ResourceState} (shows : start.Shows first) :
    ∃ last, replayDeltas first (jobs.map delta) = .ok last ∧ reached.Shows last := by
  induction runs with
  | nil => exact ⟨first, rfl, shows⟩
  | @snoc _ job store _ _ prepared done ih =>
    obtain ⟨state, replayed, shown⟩ := ih fun other member =>
      survive other (mem_append_left _ member)
    obtain ⟨after, changed, rfl⟩ := map_eq_some_iff.mp done
    have nodup := accountsFor_nodup prepared
    have worksOn := GovernorJob.Prepared.worksOn prepared shown
    have result : (job.work store).1.isOk = true ∧ (job.work store).2 = after := by
      unfold change at changed
      split at changed
      next ok => exact ⟨ok, some.inj changed⟩
      · cases changed
    obtain ⟨ok, rfl⟩ := result
    rw [job.work_answer shown nodup worksOn] at ok
    refine ⟨(state.apply job.op job.now).2, ?_, job.shows_writeBack shown nodup worksOn⟩
    have survives : job.delta.viaJson = some job.delta :=
      survive job (mem_append_right _ mem_cons_self)
    have applied : job.delta.replay state = .ok (state.apply job.op job.now).2 := by
      unfold replay
      rw [survives]
      refine (applyTo_ofOp_eq _ _ _).trans ?_
      rw [GovernorAnswer.result_of_isOk ok]
      rfl
    rw [map_append, replayDeltas_append, replayed]
    simp only [map_cons, map_nil, replayAll, applied]

/-! ## Runs of the governor -/

/-- The calls on the authority and the thread that writes their deltas to the journal.  The
deltas behind the journaled ones wait in the channel, or are lost once the thread has
stopped. -/
structure GovernorRun (ι : Type) where
  live : Locking.State ResourceAuthority ResourceCell AuthorityLock GovernorJob ι
    ResourceCell.Value
  journal : List JournalRecord
  stopped : Bool

inductive GovernorLabel (ι : Type) where
  | call (label : Locking.Label ResourceCell AuthorityLock GovernorJob ι)
  | flush (seq : SeqNo)
  | stop

variable {ι : Type}

namespace GovernorRun

def pending (run : GovernorRun ι) : List GovernorJob := run.live.log.drop run.journal.length

/-- The replayed state is the one behind the last journaled operation: the operations that
are not journaled lead from it to what the authority holds, wherever no call is just
writing. -/
def ReproducedBy (run : GovernorRun ι) (replayed : ResourceState) : Prop :=
  ∃ state, replayDeltas replayed (run.pending.map delta) = .ok state ∧
    ∀ cell, (∀ call, cell ∉ (run.live.calls call).dirty authorityLocking) →
      run.live.store.cell cell = state.cell cell

variable [DecidableEq ι]

inductive Step (before : GovernorRun ι) : GovernorLabel ι → GovernorRun ι → Prop where
  | call {label : Locking.Label ResourceCell AuthorityLock GovernorJob ι}
      {after : Locking.State ResourceAuthority ResourceCell AuthorityLock GovernorJob ι
        ResourceCell.Value} (step : authorityLocking.Step before.live label after) :
      Step before (.call label) { before with live := after }
  | flush {seq : SeqNo} {job : GovernorJob} {rest : List GovernorJob}
      (running : before.stopped = false) (next : before.pending = job :: rest)
      (increasing : ∀ record ∈ before.journal, record.seq < seq) (positive : 0 < seq) :
      Step before (.flush seq) { before with journal := before.journal ++ [⟨seq, job.delta⟩] }
  | stop : Step before .stop { before with stopped := true }

end GovernorRun

/-- A call that is started has a delta that is read back as it was written. -/
def StartsSurviving (label : GovernorLabel ι) : Prop :=
  ∀ call job, label = .call (.start call job) → job.Survives

structure Journaled (run : GovernorRun ι) : Prop where
  linear : ∃ reached, authorityLocking.Linear .empty run.live reached
  survive : run.live.AllJobs GovernorJob.Survives
  journal : run.journal.map JournalRecord.delta =
    (run.live.log.take run.journal.length).map delta
  length : run.journal.length ≤ run.live.log.length
  positive : ∀ record ∈ run.journal, 0 < record.seq

theorem Journaled.start :
    Journaled (⟨⟨.empty, fun _ => .leaving [], []⟩, [], false⟩ : GovernorRun ι) where
  linear := ⟨_, .start _⟩
  survive := ⟨fun _ _ impossible => (nomatch impossible), fun _ impossible => (nomatch impossible)⟩
  journal := rfl
  length := Nat.le_refl 0
  positive _ impossible := nomatch impossible

/-- Replay of the journal succeeds, and the rest of the log leads on to the authority. -/
theorem Journaled.reproduced {run : GovernorRun ι} (journaled : Journaled run) :
    ∃ replayed latest, replayJournal [] run.journal .empty 0 = .ok (replayed, latest) ∧
      run.ReproducedBy replayed := by
  obtain ⟨_, linear⟩ := journaled.linear
  obtain ⟨last, whole, shown⟩ := replay_runs linear.runs journaled.survive.2 shows_empty
  rw [← take_append_drop run.journal.length run.live.log, map_append,
    ← journaled.journal, replayDeltas_append] at whole
  have tail : tailJournal run.journal 0 = run.journal :=
    filter_eq_self.mpr fun record member => decide_eq_true (journaled.positive record member)
  have empty : rebuildActiveHoldsFromReservations [] .empty = .empty := rfl
  cases replayed : replayDeltas .empty (run.journal.map JournalRecord.delta) with
  | error =>
    rw [replayed] at whole
    cases whole
  | ok state =>
    rw [replayed] at whole
    refine ⟨state, (run.journal.getLast?.map JournalRecord.seq).getD 0, ?_, last, whole,
      fun cell clean => ?_⟩
    · rw [replayJournal, tail, empty, replayRecords_eq, replayed]
    · exact (linear.settled clean).trans (shown cell)

variable [DecidableEq ι]

/-- Any number of calls on a governor that starts with nothing. -/
def governorRuns (ι : Type) [DecidableEq ι] : System (GovernorRun ι) (GovernorLabel ι) where
  init run := run = ⟨⟨.empty, fun _ => .leaving [], []⟩, [], false⟩
  step := GovernorRun.Step

namespace Journaled

variable {before after : GovernorRun ι}

theorem step (journaled : Journaled before) {label : GovernorLabel ι}
    (starts : StartsSurviving label) (step : before.Step label after) : Journaled after := by
  cases step with
  | @call _ _ step =>
    obtain ⟨_, linear⟩ := journaled.linear
    obtain ⟨_, log⟩ := step.log_grows
    exact {
      linear := linear.step authorityLocking_lawful step
      survive := journaled.survive.step step fun call job same => starts call job (same ▸ rfl)
      journal := by
        have fits := journaled.length
        simp only [log, take_append_of_le_length fits]
        exact journaled.journal
      length := by
        simp only [log, length_append]
        exact Nat.le_trans journaled.length (Nat.le_add_right _ _)
      positive := journaled.positive }
  | @flush _ job rest _ next _ positive =>
    exact {
      __ := journaled
      journal := by
        have taken : before.live.log.take (before.journal.length + 1) =
            before.live.log.take before.journal.length ++ [job] := by
          rw [take_add, show before.live.log.drop before.journal.length = job :: rest from next]
          rfl
        simp only [map_append, length_append, length_cons, length_nil,
          Nat.zero_add, taken, journaled.journal]
        rfl
      length := by
        have nonempty : before.pending.length ≠ 0 := by simp [next]
        unfold GovernorRun.pending at nonempty
        rw [length_drop] at nonempty
        simp only [length_append, length_cons, length_nil]
        omega
      positive := by
        intro record member
        rcases mem_append.mp member with earlier | last
        · exact journaled.positive record earlier
        · rw [mem_singleton.mp last]
          exact positive }
  | stop => exact ⟨journaled.linear, journaled.survive, journaled.journal, journaled.length,
      journaled.positive⟩

end Journaled

/-- In every run whose deltas are read back as they were written, replay of the journal never
fails and gives the state of the authority behind the last journaled operation. -/
theorem governorRuns.replay_reproduces {run : GovernorRun ι}
    (reached : (governorRuns ι).Reachable (fun _ label => StartsSurviving label) run) :
    ∃ replayed latest, replayJournal [] run.journal .empty 0 = .ok (replayed, latest) ∧
      run.ReproducedBy replayed := by
  have journaled : Journaled run := by
    refine reached.invariant Journaled ?_ ?_
    · rintro start rfl
      exact Journaled.start
    · exact fun before label after invariant starts step => invariant.step starts step
  exact journaled.reproduced

end

/-! ## Two limits -/

namespace governorRuns

local instance : Platform := .exactUtc

local instance : AccountHasher := ⟨fun _ => 0⟩

open governor (sampleTenant)
open Function (update_self)

def limitJob (account : ResourceAccount) (limits : ResourceLimits) : GovernorJob :=
  ⟨.setLimit account limits, [account], 0⟩

section

variable {ι : Type} [DecidableEq ι] {account : ResourceAccount} {limits : ResourceLimits}
  {run : GovernorRun ι} (call : ι) {guard : GovernorRun ι → GovernorLabel ι → Prop}

theorem locks_limitJob : (limitJob account limits).locks = [.commit 0, .shard 0] := by
  have indexes : shardIndexes [account] = [0] := by
    have all : shardIndexes [account] = shardIndexes [sampleTenant] := rfl
    rw [all]
    decide
  rw [locks, limitJob, indexes]
  rfl

def inPhase (run : GovernorRun ι) (call : ι) (authority : ResourceAuthority)
    (log : List GovernorJob)
    (phase : Locking.Phase ResourceCell AuthorityLock GovernorJob ResourceCell.Value) :
    GovernorRun ι :=
  { run with live := ⟨authority, Function.update run.live.calls call phase, log⟩ }

theorem inPhase_step {call : ι} {phase next : Locking.Phase ResourceCell AuthorityLock GovernorJob
      ResourceCell.Value} {authority after : ResourceAuthority} {log more : List GovernorJob}
    {label : Locking.Label ResourceCell AuthorityLock GovernorJob ι}
    (reached : (governorRuns ι).Reachable guard (inPhase run call authority log phase))
    (allowed : guard (inPhase run call authority log phase) (.call label))
    (step : authorityLocking.Step (inPhase run call authority log phase).live label
      { (inPhase run call authority log phase).live.move call next with
        store := after
        log := more }) :
    (governorRuns ι).Reachable guard (inPhase run call after more next) := by
  refine reached.next allowed ?_
  have moved := GovernorRun.Step.call step
  simp only [inPhase, Locking.State.move, Function.update_idem] at moved
  exact moved

theorem reachable_start (reached : (governorRuns ι).Reachable guard run)
    (idle : run.live.calls call = .leaving [])
    (allowed : guard run (.call (.start call (limitJob account limits)))) :
    (governorRuns ι).Reachable guard (inPhase run call run.live.store run.live.log
      (.acquiring (limitJob account limits) [] [.commit 0, .shard 0])) := by
  rw [← @locks_limitJob account limits]
  exact reached.next allowed (.call (.start idle nofun rfl))

/-- A call that has started sets its limit while nobody holds a lock. -/
theorem reachable_limitJob (reached : (governorRuns ι).Reachable guard run)
    (waits : run.live.calls call = .acquiring (limitJob account limits) [] [.commit 0, .shard 0])
    (free : ∀ other, (run.live.calls other).held authorityLocking = [])
    (allows : ∀ before label, (∀ call job, label ≠ .start call job) →
      guard before (.call label)) :
    ∃ authority, (governorRuns ι).Reachable guard (inPhase run call authority
      (run.live.log ++ [limitJob account limits]) (.leaving [])) := by
  have others : ∀ {authority log phase lock}, lock ∉ Locking.Phase.held authorityLocking phase →
      authorityLocking.Free (inPhase run call authority log phase).live lock := by
    intro authority log phase lock unheld
    refine (Function.forall_update_iff run.live.calls fun _ phase =>
      lock ∉ Locking.Phase.held authorityLocking phase).mpr ⟨unheld, fun other _ => ?_⟩
    rw [free]
    exact not_mem_nil
  have started : (governorRuns ι).Reachable guard (inPhase run call run.live.store run.live.log
      (.acquiring (limitJob account limits) [] [.commit 0, .shard 0])) := by
    rw [inPhase, ← waits, Function.update_eq_self]
    exact reached
  have gate := inPhase_step started (allows _ (.acquire call) (by simp))
    (.acquire (update_self ..) (others not_mem_nil))
  have shard := inPhase_step gate (allows _ (.acquire call) (by simp))
    (.acquire (update_self ..) (others (by simp [Locking.Phase.held])))
  obtain ⟨values, done⟩ : ∃ values,
      authorityLocking.change (limitJob account limits) run.live.store = some values := ⟨_, rfl⟩
  have worked := inPhase_step shard (allows _ (.work call) (by simp))
    (.work (update_self ..) done)
  have written := inPhase_step worked (allows _ (.write call (.account account)) (by simp))
    (.write (update_self ..) mem_cons_self)
  have committed := inPhase_step written (allows _ (.commit call) (by simp))
    (.commit (update_self ..) fun _ own => own)
  rw [show authorityLocking.locks _ = _ from @locks_limitJob account limits] at committed
  have opened := inPhase_step committed (allows _ (.release call (.commit 0)) (by simp))
    (.release (update_self ..))
  have left := inPhase_step opened (allows _ (.release call (.shard 0)) (by simp))
    (.release (update_self ..))
  exact ⟨_, left⟩

end

theorem reachable_idle {guard : GovernorRun Bool → GovernorLabel Bool → Prop} :
    (governorRuns Bool).Reachable guard ⟨⟨.empty, fun _ => .leaving [], []⟩, [], false⟩ :=
  .start rfl

def plainLimits : ResourceLimits := { maxInputTokens := some 10 }

def sampleUser : ResourceAccount := .user ⟨"tenant"⟩ ⟨"user"⟩

/-- Two calls start before either has a lock, and set limits one after the other. -/
theorem two_limits_reproduced :
    ∃ run, (governorRuns Bool).Reachable (fun _ label => StartsSurviving label) run ∧
      run.journal = [⟨1, (limitJob sampleTenant plainLimits).delta⟩,
        ⟨2, (limitJob sampleUser plainLimits).delta⟩] ∧
      ∃ replayed latest, replayJournal [] run.journal .empty 0 = .ok (replayed, latest) ∧
        run.ReproducedBy replayed := by
  have survives : ∀ account ∈ [sampleTenant, sampleUser],
      (limitJob account plainLimits).Survives := by
    intro account listed
    have readable : account.readable = true := by
      revert account
      decide +kernel
    simp only [GovernorJob.Survives, delta, limitJob, ofOp, viaJson, readable]
    rfl
  have starts : ∀ call, ∀ account ∈ [sampleTenant, sampleUser], StartsSurviving
      (.call (.start call (limitJob account plainLimits)) : GovernorLabel Bool) := by
    rintro _ account listed _ _ ⟨⟩
    exact survives account listed
  have allows : ∀ (before : GovernorRun Bool) (label : Locking.Label _ _ _ Bool),
      (∀ call job, label ≠ .start call job) → StartsSurviving (.call label) := by
    intro _ label other call job same
    exact absurd (GovernorLabel.call.inj same) (other call job)
  have idle := @reachable_idle fun _ label => StartsSurviving label
  have first := reachable_start false idle rfl (starts false sampleTenant (by simp))
  have second := reachable_start true first rfl (starts true sampleUser (by simp))
  obtain ⟨_, firstDone⟩ := reachable_limitJob false second rfl
    (fun other => by cases other <;> rfl) allows
  obtain ⟨_, secondDone⟩ := reachable_limitJob true firstDone rfl
    (fun other => by cases other <;> rfl) allows
  have flushes : ∀ seq, StartsSurviving (.flush seq : GovernorLabel Bool) := by
    rintro _ _ _ ⟨⟩
  have flushed := (secondDone.next (flushes 1) (.flush rfl rfl (forall_mem_nil _) Nat.one_pos)).next
    (flushes 2) (.flush rfl rfl (forall_mem_singleton.mpr Nat.one_lt_two) Nat.two_pos)
  exact ⟨_, flushed, rfl, replay_reproduces flushed⟩

/-- The account of a user whose identifier is reserved for the host. -/
def reservedUser : ResourceAccount := .user ⟨"tenant"⟩ ⟨tenantSharedManagedUserId⟩

/-- A limit for a reserved account is set and journaled, but replay cannot read it. -/
theorem reserved_account_is_lost : ∃ run, (governorRuns Bool).Reachable System.anyStep run ∧
      run.journal = [⟨1, (limitJob reservedUser plainLimits).delta⟩] ∧
      replayJournal [] run.journal .empty 0 =
        .error (.storage "decode resource governor delta") := by
  have started := @reachable_start _ _ reservedUser plainLimits _ false System.anyStep
    reachable_idle rfl trivial
  obtain ⟨_, done⟩ := reachable_limitJob false started rfl
    (fun other => by cases other <;> rfl) fun _ _ _ => trivial
  refine ⟨_, done.next trivial (.flush rfl rfl (forall_mem_nil _) Nat.one_pos), rfl, ?_⟩
  have unreadable : reservedUser.readable = false := by decide +kernel
  have refused : (limitJob reservedUser plainLimits).delta.viaJson = none := by
    simp [delta, limitJob, ofOp, viaJson, unreadable]
  change replayRecords _ 0 [⟨1, (limitJob reservedUser plainLimits).delta⟩] = _
  simp [replayRecords, replay, refused]

end governorRuns

end Ironclaw.Resources
