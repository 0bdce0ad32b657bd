import Ironclaw.Lib.Cas
import Ironclaw.Resources.Snapshot

/-!
# Compaction of the governor journal

Compaction reads the snapshot, replays the journal behind it and writes the result back
with the position it has reached, unless the file has come further meanwhile.  It runs
beside the thread that appends to the journal and beside other compactions, takes the
snapshot, the tail of the journal and the file at different moments, and may stop between
any two of them.
-/

namespace Ironclaw.Resources

open HostApi Lib ResourceGovernorDelta
open JournalRecord (seq)
open List

section

variable [platform : Platform]

/-- Where a run of `compact_resource_governor_snapshot` is. -/
inductive Compactor where
  | idle
  | inspected (snapshot : ResourceGovernorSnapshot)
  | replayed (compacted : ResourceGovernorSnapshot)
  | updating (compacted : ResourceGovernorSnapshot) (version : Nat)
      (next : ResourceGovernorSnapshot)

/-- The closure of the update: a snapshot that has come as far is kept. -/
def ResourceGovernorSnapshot.compactedTo (snapshot compacted : ResourceGovernorSnapshot) :
    ResourceGovernorSnapshot :=
  if snapshot.journalSeq ≥ compacted.journalSeq then snapshot else compacted

namespace Compactor

def inspect (file : Option ResourceGovernorSnapshot) : Compactor → Compactor
  | .idle =>
    match readSnapshot file with
    | .ok snapshot => .inspected snapshot
    | .error _ => .idle
  | phase => phase

def replay (order : List ResourceReservationId) (journal : List JournalRecord) :
    Compactor → Compactor
  | .inspected snapshot =>
    match replayJournal order journal snapshot.state snapshot.journalSeq with
    | .ok (state, latest) => .replayed ⟨state, latest⟩
    | .error _ => .idle
  | phase => phase

/-- The file is read with its version; a snapshot that stays as it is is not written. -/
def read (file : Cell (Option ResourceGovernorSnapshot)) : Compactor → Compactor
  | .replayed compacted =>
    match readSnapshot file.value with
    | .ok snapshot =>
      if file.value.isSome ∧ snapshot.journalSeq ≥ compacted.journalSeq then .idle
      else .updating compacted file.version (snapshot.compactedTo compacted)
    | .error _ => .idle
  | phase => phase

def snapshots : Compactor → List ResourceGovernorSnapshot
  | .idle => []
  | .inspected snapshot => [snapshot]
  | .replayed compacted => [compacted]
  | .updating compacted _ next => [compacted, next]

end Compactor

/-- The journal, the file of the snapshot and the compactions under way. -/
structure CompactionRun (ι : Type) where
  journal : List JournalRecord
  file : Cell (Option ResourceGovernorSnapshot)
  compactors : ι → Compactor

inductive CompactionLabel (ι : Type) where
  | append (record : JournalRecord)
  | inspect (compactor : ι)
  | replay (compactor : ι) (order : List ResourceReservationId)
  | read (compactor : ι)
  | write (compactor : ι)
  | stop (compactor : ι)

namespace CompactionRun

variable {ι : Type} (run : CompactionRun ι)

/-- `load_authority`: the snapshot of the file and the journal behind it. -/
def loadAuthority (order : List ResourceReservationId) :
    Except ResourceError (ResourceState × SeqNo) :=
  match readSnapshot run.file.value with
  | .ok snapshot => replayJournal order run.journal snapshot.state snapshot.journalSeq
  | .error error => .error error

/-- The outcome of replaying the whole journal: the same error, or the same state and
position. -/
def LoadsWhole (loaded : Except ResourceError (ResourceState × SeqNo)) : Prop :=
  SameOutcome (SameCheckpoint ResourceState.SameHolds) loaded
    (replayJournal [] run.journal .empty 0)

/-- The journal assigns increasing positions, and a hash map is walked key by key. -/
def Enabled : CompactionLabel ι → Prop
  | .append record => (∀ other ∈ run.journal, other.seq < record.seq) ∧ 0 < record.seq
  | .replay compactor order => ∀ snapshot, run.compactors compactor = .inspected snapshot →
      snapshot.state.reservations.IteratedBy order
  | _ => True

variable [DecidableEq ι]

def put (run : CompactionRun ι) (compactor : ι) (phase : Compactor) : CompactionRun ι :=
  { run with compactors := Function.update run.compactors compactor phase }

/-- The file is written if its version is still the one that was read. -/
def write (run : CompactionRun ι) (compactor : ι) : CompactionRun ι :=
  match run.compactors compactor with
  | .updating compacted version next =>
    if version = run.file.version then
      { run with file := ⟨some next, version + 1⟩ }.put compactor .idle
    else run.put compactor (.replayed compacted)
  | _ => run

def next (run : CompactionRun ι) : CompactionLabel ι → CompactionRun ι
  | .append record => { run with journal := run.journal ++ [record] }
  | .inspect compactor => run.put compactor ((run.compactors compactor).inspect run.file.value)
  | .replay compactor order =>
    run.put compactor ((run.compactors compactor).replay order run.journal)
  | .read compactor => run.put compactor ((run.compactors compactor).read run.file)
  | .write compactor => run.write compactor
  | .stop compactor => run.put compactor .idle

end CompactionRun

/-- Any number of compactions beside a journal that grows. -/
def compactionRuns (ι : Type) [DecidableEq ι] : System (CompactionRun ι) (CompactionLabel ι) :=
  .ofAction (fun run => run = ⟨[], ⟨none, 0⟩, fun _ => .idle⟩) CompactionRun.Enabled
    CompactionRun.next

/-- A delta that is appended survives a snapshot and its holds fit. -/
def AppendsStorable {ι : Type} (scale : Nat) (run : CompactionRun ι) : CompactionLabel ι → Prop
  | .append record => record.delta.Storable ∧
      ∀ state latest, replayJournal [] run.journal .empty 0 = .ok (state, latest) →
        record.delta.Fits scale state
  | _ => True

/-! ## What holds along a run -/

abbrev replayRecord (state : ResourceState) (record : JournalRecord) :
    Except ResourceError ResourceState :=
  record.delta.replay state

theorem replayRecord_respects : Respects replayRecord ResourceState.SameHolds :=
  fun _ _ record same => replay_same same record.delta

theorem replayJournal_eq_resume (order : List ResourceReservationId) (journal : List JournalRecord)
    (state : ResourceState) (start : SeqNo) :
    replayJournal order journal state start = resume replayRecord seq
        (rebuildActiveHoldsFromReservations order state, start)
        (behind seq journal start) :=
  replayRecords_eq_resume _ start _

/-- The snapshot stands for the journal up to its position and is read back as it was
written. -/
structure ResourceGovernorSnapshot.Faithful (journal : List JournalRecord)
    (snapshot : ResourceGovernorSnapshot) : Prop where
  covers : Covers replayRecord seq ResourceState.SameHolds .empty journal
    (snapshot.state, snapshot.journalSeq)
  storable : snapshot.state.Storable

/-- The deltas of the journal survive snapshots, and the holds add up wherever replay of it
comes through. -/
structure JournalStorable (scale : Nat) (journal : List JournalRecord) : Prop where
  increasing : Increasing seq journal
  positive : ∀ record ∈ journal, 0 < record.seq
  storable : ∀ record ∈ journal, record.delta.Storable
  conserved : ∀ part, part <+: journal → ∀ last,
    resume replayRecord seq (.empty, 0) part = .ok last → Conserved scale last.1

variable {record : JournalRecord}

namespace JournalStorable

variable {scale : Nat} {journal : List JournalRecord}

theorem empty (scale : Nat) : JournalStorable scale [] where
  increasing := .nil
  positive _ impossible := nomatch impossible
  storable _ impossible := nomatch impossible
  conserved part inside last resumed := by
    rw [prefix_nil.mp inside] at resumed
    cases resumed
    exact Conserved.empty scale

theorem replay_whole (kept : JournalStorable scale journal) : replayJournal [] journal .empty 0 =
      resume replayRecord seq (.empty, 0) journal := by
  have tail : behind seq journal 0 = journal :=
    filter_eq_self.mpr fun record member => decide_eq_true (kept.positive record member)
  rw [replayJournal_eq_resume, tail]
  rfl

theorem snoc (kept : JournalStorable scale journal)
    (later : ∀ other ∈ journal, other.seq < record.seq) (positive : 0 < record.seq)
    (storable : record.delta.Storable)
    (fits : ∀ state latest, replayJournal [] journal .empty 0 = .ok (state, latest) →
      record.delta.Fits scale state) : JournalStorable scale (journal ++ [record]) where
  increasing := kept.increasing.snoc later
  positive := forall_mem_append.mpr ⟨kept.positive, forall_mem_singleton.mpr positive⟩
  storable := forall_mem_append.mpr ⟨kept.storable, forall_mem_singleton.mpr storable⟩
  conserved part inside last resumed := by
    cases prefix_concat_iff.mp inside with
    | inr earlier => exact kept.conserved part earlier last resumed
    | inl whole =>
      rw [whole, resume_append] at resumed
      cases replayed : resume replayRecord seq (.empty, 0) journal with
      | error error =>
        rw [replayed] at resumed
        cases resumed
      | ok before =>
        rw [replayed] at resumed
        have conserved := kept.conserved journal (prefix_refl _) before replayed
        have fit := fits before.1 before.2 (kept.replay_whole.trans replayed)
        simp only [resume, replayAll] at resumed
        cases applied : advanceTo replayRecord seq before record with
        | error =>
          rw [applied] at resumed
          cases resumed
        | ok =>
          rw [applied] at resumed
          cases resumed
          exact replay_conserved fit conserved (advanceTo_ok applied).1

end JournalStorable

variable {order : List ResourceReservationId}

namespace ResourceGovernorSnapshot.Faithful

variable {scale : Nat} {journal : List JournalRecord} {snapshot : ResourceGovernorSnapshot}

theorem fresh (kept : JournalStorable scale journal) :
    ResourceGovernorSnapshot.fresh.Faithful journal where
  covers := .atStart (.refl _) kept.positive
  storable := .empty

variable (faithful : snapshot.Faithful journal)
include faithful

theorem reads : decodeSnapshot snapshot = .ok snapshot := by
  rw [decodeSnapshot, faithful.storable.viaJson_eq]

theorem rebuilt (kept : JournalStorable scale journal)
    (iterated : snapshot.state.reservations.IteratedBy order) :
    Covers replayRecord seq ResourceState.SameHolds .empty journal
      (rebuildActiveHoldsFromReservations order snapshot.state, snapshot.journalSeq) := by
  have conserved : Conserved scale snapshot.state := by
    obtain ⟨_, reached, same⟩ := faithful.covers
    exact same.conserved (kept.conserved _
      ⟨_, upTo_append_behind kept.increasing snapshot.journalSeq⟩ _ reached)
  exact faithful.covers.of_same fun replayed same =>
    (ResourceState.SameHolds.rebuilt conserved iterated).trans same

theorem loads (kept : JournalStorable scale journal)
    (iterated : snapshot.state.reservations.IteratedBy order) :
    SameOutcome (SameCheckpoint ResourceState.SameHolds)
      (replayJournal order journal snapshot.state snapshot.journalSeq)
      (replayJournal [] journal .empty 0) := by
  rw [kept.replay_whole, replayJournal_eq_resume]
  exact (faithful.rebuilt kept iterated).resumes replayRecord_respects kept.increasing

theorem compacted (kept : JournalStorable scale journal)
    (iterated : snapshot.state.reservations.IteratedBy order) {state : ResourceState}
    {latest : SeqNo} (replayed : replayJournal order journal snapshot.state snapshot.journalSeq =
      .ok (state, latest)) : Faithful journal ⟨state, latest⟩ := by
  rw [replayJournal_eq_resume] at replayed
  refine ⟨(faithful.rebuilt kept iterated).next replayRecord_respects kept.increasing
    kept.positive replayed, ?_⟩
  have step : ∀ record ∈ behind seq journal snapshot.journalSeq,
      ∀ before after : ResourceState × SeqNo, before.1.Storable →
        advanceTo replayRecord seq before record = .ok after →
        after.1.Storable := by
    intro record member _ _ storable applied
    exact replay_storable
      (kept.storable record (mem_filter.mp member).1) storable (advanceTo_ok applied).1
  exact replayAll_keeps step (faithful.storable.rebuilt order) replayed

theorem snoc (later : ∀ other ∈ journal, other.seq < record.seq) (positive : 0 < record.seq) :
    snapshot.Faithful (journal ++ [record]) :=
  ⟨faithful.covers.snoc later positive, faithful.storable⟩

theorem compactedTo {compacted : ResourceGovernorSnapshot} (other : compacted.Faithful journal) :
    (snapshot.compactedTo compacted).Faithful journal := by
  unfold ResourceGovernorSnapshot.compactedTo
  split
  · exact faithful
  · exact other

end ResourceGovernorSnapshot.Faithful

section

variable {ι : Type} {scale : Nat}

/-- Every snapshot in the file or at hand is faithful. -/
structure CompactionRun.Sound (scale : Nat) (run : CompactionRun ι) : Prop where
  journal : JournalStorable scale run.journal
  file : ∀ snapshot, run.file.value = some snapshot → snapshot.Faithful run.journal
  compactors : ∀ compactor, ∀ snapshot ∈ (run.compactors compactor).snapshots,
    snapshot.Faithful run.journal

namespace CompactionRun.Sound

variable {run : CompactionRun ι}

theorem start : Sound scale (⟨[], ⟨none, 0⟩, fun _ => .idle⟩ : CompactionRun ι) where
  journal := .empty scale
  file := nofun
  compactors := nofun

section

variable (sound : run.Sound scale)
include sound

theorem reads :
    ∃ snapshot, readSnapshot run.file.value = .ok snapshot ∧ snapshot.Faithful run.journal := by
  cases written : run.file.value with
  | none => exact ⟨.fresh, rfl, .fresh sound.journal⟩
  | some snapshot =>
    have faithful := sound.file snapshot written
    exact ⟨snapshot, faithful.reads, faithful⟩

variable (compactor : ι)

theorem inspect : ∀ snapshot ∈ ((run.compactors compactor).inspect run.file.value).snapshots,
      snapshot.Faithful run.journal := by
  have before := sound.compactors compactor
  obtain ⟨_, reads, faithful⟩ := sound.reads
  generalize run.compactors compactor = phase at before
  cases phase with
  | idle =>
    simp only [Compactor.inspect, reads]
    exact fun _ member => mem_singleton.mp member ▸ faithful
  | _ => exact before

theorem replay (iterated : ∀ snapshot, run.compactors compactor = .inspected snapshot →
      snapshot.state.reservations.IteratedBy order) :
    ∀ snapshot ∈ ((run.compactors compactor).replay order run.journal).snapshots,
      snapshot.Faithful run.journal := by
  have before := sound.compactors compactor
  generalize run.compactors compactor = phase at before iterated
  cases phase with
  | inspected snapshot =>
    have faithful := before snapshot mem_cons_self
    simp only [Compactor.replay]
    cases replayed : replayJournal order run.journal snapshot.state snapshot.journalSeq with
    | error => exact nofun
    | ok =>
      intro _ member
      rw [mem_singleton.mp member]
      exact faithful.compacted sound.journal (iterated snapshot rfl) replayed
  | _ => exact before

theorem read : ∀ snapshot ∈ ((run.compactors compactor).read run.file).snapshots,
      snapshot.Faithful run.journal := by
  have before := sound.compactors compactor
  obtain ⟨_, reads, faithful⟩ := sound.reads
  generalize run.compactors compactor = phase at before
  cases phase with
  | replayed compacted =>
    have ready := before compacted mem_cons_self
    simp only [Compactor.read, reads]
    split
    · exact nofun
    intro _ member
    simp only [Compactor.snapshots, mem_cons, not_mem_nil, or_false] at member
    rcases member with rfl | rfl
    · exact ready
    · exact faithful.compactedTo ready
  | _ => exact before

theorem append (later : ∀ other ∈ run.journal, other.seq < record.seq) (positive : 0 < record.seq)
    (storable : record.delta.Storable)
    (fits : ∀ state latest, replayJournal [] run.journal .empty 0 = .ok (state, latest) →
      record.delta.Fits scale state) :
    CompactionRun.Sound scale { run with journal := run.journal ++ [record] } where
  journal := sound.journal.snoc later positive storable fits
  file snapshot written := (sound.file snapshot written).snoc later positive
  compactors compactor snapshot member :=
    (sound.compactors compactor snapshot member).snoc later positive

end

variable [DecidableEq ι]

theorem put (sound : run.Sound scale) (compactor : ι) {phase : Compactor}
    (faithful : ∀ snapshot ∈ phase.snapshots, snapshot.Faithful run.journal) :
    (run.put compactor phase).Sound scale where
  __ := sound
  compactors := (Function.forall_update_iff run.compactors fun _ phase =>
    ∀ snapshot ∈ phase.snapshots, snapshot.Faithful run.journal).mpr
      ⟨faithful, fun other _ => sound.compactors other⟩

theorem write (sound : run.Sound scale) (compactor : ι) : (run.write compactor).Sound scale := by
  have before := sound.compactors compactor
  unfold CompactionRun.write
  split
  next compacted version next phase =>
    rw [phase] at before
    split
    · have written : CompactionRun.Sound scale { run with file := ⟨some next, version + 1⟩ } :=
        ⟨sound.journal, fun snapshot same => Option.some.inj same ▸
          before next (mem_cons_of_mem _ mem_cons_self), sound.compactors⟩
      exact written.put compactor nofun
    · refine sound.put compactor fun snapshot member => ?_
      rw [mem_singleton.mp member]
      exact before compacted mem_cons_self
  · exact sound

theorem step (sound : run.Sound scale) {label : CompactionLabel ι} (enabled : run.Enabled label)
    (allowed : AppendsStorable scale run label) : (run.next label).Sound scale := by
  cases label with
  | append => exact sound.append enabled.1 enabled.2 allowed.1 allowed.2
  | inspect => exact sound.put _ (sound.inspect _)
  | replay => exact sound.put _ (sound.replay _ enabled)
  | read => exact sound.put _ (sound.read _)
  | write => exact sound.write _
  | stop compactor => exact sound.put compactor nofun

end CompactionRun.Sound

variable [DecidableEq ι]

/-- In every run whose deltas survive snapshots, the snapshot in the file can be read, and
loading from it is as good as replaying the whole journal; so is loading from a snapshot
that was read earlier. -/
theorem compactionRuns.loads_whole_journal (scale : Nat) {run : CompactionRun ι}
    (reached : (compactionRuns ι).Reachable (AppendsStorable scale) run) :
    (∃ snapshot, readSnapshot run.file.value = .ok snapshot ∧
        ∀ order, snapshot.state.reservations.IteratedBy order →
          run.LoadsWhole (run.loadAuthority order)) ∧
      ∀ compactor snapshot, run.compactors compactor = .inspected snapshot →
        ∀ order, snapshot.state.reservations.IteratedBy order →
          run.LoadsWhole (replayJournal order run.journal snapshot.state snapshot.journalSeq) := by
  have sound : run.Sound scale := by
    refine reached.invariant (CompactionRun.Sound scale) (fun first initial => ?_) ?_
    · exact initial ▸ .start
    · rintro before _ _ sound allowed ⟨enabled, rfl⟩
      exact sound.step enabled allowed
  refine ⟨?_, fun compactor snapshot inspected order iterated => ?_⟩
  · obtain ⟨snapshot, reads, faithful⟩ := sound.reads
    refine ⟨snapshot, reads, fun order iterated => ?_⟩
    rw [CompactionRun.loadAuthority, reads]
    exact faithful.loads sound.journal iterated
  · have faithful := sound.compactors compactor snapshot (inspected ▸ mem_cons_self)
    exact faithful.loads sound.journal iterated

end

end

/-! ## Three runs -/

namespace compactionRuns

open governor (askTokens sampleTenant)

local instance : Platform := .exactUtc

/-- One compaction that finds no snapshot, from its start to its end. -/
def compactOnce : List (CompactionLabel Unit) := [.inspect (), .replay () [], .read (), .write ()]

/-- The records are appended and then compacted. -/
def compactAfter (records : List JournalRecord) : CompactionRun Unit :=
  (records.map CompactionLabel.append ++ compactOnce).foldl CompactionRun.next
    ⟨[], ⟨none, 0⟩, fun _ => .idle⟩

def asks (seq : SeqNo) (tokens : U64) : JournalRecord := ⟨seq, .ofOp (askTokens seq tokens) 0⟩

def heldTokens (loaded : Except ResourceError (ResourceState × SeqNo)) : Option Int :=
  loaded.toOption.map fun last => (last.1.reservedFor sampleTenant).amount .inputTokens

/-- The compaction of a journal that was appended as the guard allows. -/
theorem compactAfter_reached {guard : CompactionRun Unit → CompactionLabel Unit → Prop}
    {records : List JournalRecord}
    (allowed : System.AllowedAlong (fun run label => guard run label ∧ run.Enabled label)
      CompactionRun.next ⟨[], ⟨none, 0⟩, fun _ => .idle⟩
      (records.map CompactionLabel.append ++ compactOnce)) :
    (compactionRuns Unit).Reachable guard (compactAfter records) := by
  have started : (compactionRuns Unit).Reachable guard ⟨[], ⟨none, 0⟩, fun _ => .idle⟩ := .start rfl
  exact started.followEnabled _ allowed

/-- A missing snapshot has no reservations to walk. -/
theorem fresh_iterated {snapshot : ResourceGovernorSnapshot}
    (same : Compactor.inspected .fresh = .inspected snapshot) :
    snapshot.state.reservations.IteratedBy [] := by
  cases same
  exact ⟨.nil, fun _ => by simp [ResourceGovernorSnapshot.fresh, ResourceState.empty]⟩

def smallRun : CompactionRun Unit := compactAfter [asks 1 5]

theorem smallRun_loads_whole_journal : smallRun.file.value.isSome = true ∧
      (∃ snapshot, readSnapshot smallRun.file.value = .ok snapshot ∧
        ∀ order, snapshot.state.reservations.IteratedBy order →
          smallRun.LoadsWhole (smallRun.loadAuthority order)) := by
  have reached : (compactionRuns Unit).Reachable (AppendsStorable 2) smallRun := by
    refine compactAfter_reached ⟨⟨⟨?_, ?_⟩, ?_⟩, ⟨trivial, trivial⟩,
      ⟨trivial, fun _ => fresh_iterated⟩, ⟨trivial, trivial⟩, ⟨trivial, trivial⟩,
      trivial⟩
    · exact fun _ => by decide +kernel
    · intro _ _ replayed
      cases replayed
      have fits : HoldsFit 2 .empty (askTokens 1 5) := by decide +kernel
      exact fits
    · exact ⟨fun _ impossible => (nomatch impossible), by decide⟩
  exact ⟨by decide +kernel, (loads_whole_journal 2 reached).1⟩

def hostRun : CompactionRun Unit := compactAfter [⟨1, .reserve (.system ⟨1⟩) {} ⟨1⟩ 0⟩]

/-- A hold that is cut at the largest count, and the first request is given back. -/
def cutRun : CompactionRun Unit := compactAfter [asks 1 U64.max, asks 2 1, ⟨3, .release ⟨1⟩ 0⟩]

/-- The snapshot with a reserved identifier is written and cannot be read again, and a hold
that replay of the journal has lost is back when the snapshot is loaded. -/
theorem compaction_changes_the_load : ((compactionRuns Unit).Reachable System.anyStep hostRun ∧
      (hostRun.loadAuthority [⟨1⟩]).isOk = false ∧
      (replayJournal [] hostRun.journal .empty 0).isOk = true) ∧
    (compactionRuns Unit).Reachable System.anyStep cutRun ∧
      heldTokens (cutRun.loadAuthority [⟨1⟩, ⟨2⟩]) = some 1 ∧
      heldTokens (replayJournal [] cutRun.journal .empty 0) = some 0 := by
  refine ⟨⟨compactAfter_reached ⟨⟨trivial, ?_⟩, ⟨trivial, trivial⟩,
      ⟨trivial, fun _ => fresh_iterated⟩, ⟨trivial, trivial⟩, ⟨trivial, trivial⟩,
      trivial⟩, by decide +kernel, by decide +kernel⟩,
    compactAfter_reached ⟨⟨trivial, ?_⟩, ⟨trivial, ?_⟩, ⟨trivial, ?_⟩, ⟨trivial, trivial⟩,
      ⟨trivial, fun _ => fresh_iterated⟩, ⟨trivial, trivial⟩, ⟨trivial, trivial⟩,
      trivial⟩, by decide +kernel, by decide +kernel⟩
  · exact ⟨fun _ impossible => (nomatch impossible), by decide⟩
  · exact ⟨fun _ impossible => (nomatch impossible), by decide⟩
  · exact ⟨fun _ member => mem_singleton.mp member ▸ (by decide), by decide⟩
  · refine ⟨fun other member => ?_, by decide⟩
    cases mem_cons.mp member with
    | inl first => exact first ▸ (by decide)
    | inr second => exact mem_singleton.mp second ▸ (by decide)

end compactionRuns

end Ironclaw.Resources
