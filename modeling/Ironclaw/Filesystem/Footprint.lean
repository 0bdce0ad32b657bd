import Ironclaw.Filesystem.InMemory
import Ironclaw.Lib.Footprint

/-!
# What the backend operations touch

An entry is read if the answer of an operation depends on its contents.  Whether a path
is taken, under which version and as which kind of record, is told by refusals of writes
as well and does not count as reading.
-/

namespace Ironclaw.Filesystem

open HostApi State Option
open Lib EventRecord Table Observer

/-- What a write may learn of a stored entry. -/
def StoredEntry.outline (stored : StoredEntry) : RecordVersion × Option RecordKind :=
  (stored.version, stored.entry.kind)

/-- The states differ at most in the contents of what is stored at the location. -/
structure State.Alike (location : VirtualPath) (first second : State) : Prop where
  entries : ∀ path, path ≠ location → first.entries.get path = second.entries.get path
  outline : (first.entries.get location).map StoredEntry.outline =
    (second.entries.get location).map StoredEntry.outline
  eventLogs : ∀ path, path ≠ location → first.eventLogs.get path = second.eventLogs.get path
  seqs : (first.eventLogs.get location).map (·.map seq) =
    (second.eventLogs.get location).map (·.map seq)
  sequences : first.sequences = second.sequences

/-- Something is stored that was not stored before. -/
def Renewed {ν : Type} (before after : Option ν) : Prop := after ≠ none ∧ after ≠ before

/-- Something that was stored is gone. -/
def Dropped {ν : Type} (before after : Option ν) : Prop := before ≠ none ∧ after = none

/-- The entry, the event log and the counter at a path are observed together. -/
def storeObserver : Observer State VirtualPath where
  alike := State.Alike
  wrote := fun location before after =>
    Renewed (before.entries.get location) (after.entries.get location) ∨
      Renewed (before.eventLogs.get location) (after.eventLogs.get location) ∨
      Renewed (before.sequences.get location) (after.sequences.get location)
  erased := fun location before after =>
    Dropped (before.entries.get location) (after.entries.get location) ∨
      Dropped (before.eventLogs.get location) (after.eventLogs.get location) ∨
      Dropped (before.sequences.get location) (after.sequences.get location)
  not_wrote_self := by
    rintro location state (⟨_, changed⟩ | ⟨_, changed⟩ | ⟨_, changed⟩) <;> exact changed rfl
  not_erased_self := by
    rintro location state (⟨held, gone⟩ | ⟨held, gone⟩ | ⟨held, gone⟩) <;> exact held gone

namespace State.Alike

variable {location : VirtualPath} {first second : State}

variable (alike : Alike location first second)
include alike

variable (path : VirtualPath)

theorem outline_at : (first.entries.get path).map StoredEntry.outline =
      (second.entries.get path).map StoredEntry.outline := by
  by_cases same : path = location
  · rw [same, alike.outline]
  · rw [alike.entries path same]

theorem isSome_at : (first.entries.get path).isSome = (second.entries.get path).isSome := by
  rw [← isSome_map, alike.outline_at path, isSome_map]

theorem keys : first.entries.keys = second.entries.keys := by
  ext path
  rw [mem_keys, mem_keys, alike.isSome_at path]

theorem currentVersion : first.currentVersion path = second.currentVersion path := by
  have versions := congrArg (Option.map Prod.fst) (alike.outline_at path)
  rw [map_map, map_map] at versions
  exact versions

theorem kind :
    (first.entries.get path).map (·.entry.kind) = (second.entries.get path).map (·.entry.kind) := by
  have kinds := congrArg (Option.map Prod.snd) (alike.outline_at path)
  rw [map_map, map_map] at kinds
  exact kinds

theorem hasDescendants : first.hasDescendants path = second.hasDescendants path := by
  rw [State.hasDescendants, State.hasDescendants, alike.keys]

theorem seqs_at : (first.logAt path).map seq = (second.logAt path).map seq := by
  have seqs : (first.eventLogs.get path).map (·.map seq) =
      (second.eventLogs.get path).map (·.map seq) := by
    by_cases same : path = location
    · rw [same, alike.seqs]
    · rw [alike.eventLogs path same]
  have logs := congrArg (getD · ([].map seq)) seqs
  rwa [getD_map, getD_map] at logs

end State.Alike

open State.Alike

/-! ## Operations at one path -/

def AtPath (access : Access) (path : VirtualPath) : Access → VirtualPath → Prop :=
  fun actual location => actual = access ∧ location = path

def AtOrBelow (access : Access) (path : VirtualPath) : Access → VirtualPath → Prop :=
  fun actual location => actual = access ∧ path.path.parts <+: location.path.parts

variable {ν : Type} {location : VirtualPath}

section

variable {path : VirtualPath} {allowed : VirtualPath → Prop} {stored : Bool}
  {table before after : Table VirtualPath ν}

/-- The tables differ at most at allowed paths, where something is stored now or nothing is. -/
def ChangedAt (stored : Bool) (allowed : VirtualPath → Prop)
    (before after : Table VirtualPath ν) : Prop :=
  ∀ location, after.get location = before.get location ∨
    (after.get location).isSome = stored ∧ allowed location

theorem ChangedAt.refl (table : Table VirtualPath ν) : ChangedAt stored allowed table table :=
  fun _ => .inl rfl

theorem ChangedAt.renewed (changed : ChangedAt stored allowed before after)
    (renewed : Renewed (before.get location) (after.get location)) :
    stored = true ∧ allowed location := by
  rcases changed location with same | ⟨there, here⟩
  · exact absurd same renewed.2
  · exact ⟨there.symm.trans (isSome_iff_ne_none.mpr renewed.1), here⟩

theorem ChangedAt.dropped (changed : ChangedAt stored allowed before after)
    (dropped : Dropped (before.get location) (after.get location)) :
    stored = false ∧ allowed location := by
  rcases changed location with same | ⟨there, here⟩
  · exact absurd (same.symm.trans dropped.2) dropped.1
  · rw [dropped.2] at there
    exact ⟨there.symm, here⟩

theorem changedAt_insert (value : ν) :
    ChangedAt true (· = path) table (table.insert path value) := by
  intro _
  rw [get_insert]
  split
  next same => exact .inr ⟨rfl, same⟩
  · exact .inl rfl

theorem changedAt_remove (here : allowed path) :
    ChangedAt false allowed table (table.remove path) := by
  intro location
  rw [get_remove]
  split
  next same => exact .inr ⟨rfl, same ▸ here⟩
  · exact .inl rfl

theorem ChangedAt.retain (changed : ChangedAt false allowed before after)
    {test : VirtualPath → Bool} (drops : ∀ location, test location = false → allowed location) :
    ChangedAt false allowed before (after.retain test) := by
  intro location
  rw [get_retain]
  cases kept : test location with
  | true => exact changed location
  | false => exact .inr ⟨rfl, drops location kept⟩

structure State.Changed (stored : Bool) (allowed : VirtualPath → Prop) (before after : State) :
    Prop where
  entries : ChangedAt stored allowed before.entries after.entries
  eventLogs : ChangedAt stored allowed before.eventLogs after.eventLogs
  sequences : ChangedAt stored allowed before.sequences after.sequences

theorem State.Changed.refl (state : State) : state.Changed stored allowed state :=
  ⟨.refl _, .refl _, .refl _⟩

theorem within_of_changed {α : Type} (stored : Bool) {call : State → α × State}
    (blind : ∀ before other location, State.Alike location before other →
      (call other).1 = (call before).1)
    (changed : ∀ state : State, state.Changed stored allowed (call state).2) :
    storeObserver.Within call fun access location =>
      access = (if stored then .write else .delete) ∧ allowed location := by
  refine within_change blind (fun before location wrote => ?_)
    (fun before location erased => ?_)
  · obtain ⟨rfl, here⟩ : stored = true ∧ allowed location := by
      rcases wrote with entry | log | counter
      · exact (changed before).entries.renewed entry
      · exact (changed before).eventLogs.renewed log
      · exact (changed before).sequences.renewed counter
    exact ⟨rfl, here⟩
  · obtain ⟨rfl, here⟩ : stored = false ∧ allowed location := by
      rcases erased with entry | log | counter
      · exact (changed before).entries.dropped entry
      · exact (changed before).eventLogs.dropped log
      · exact (changed before).sequences.dropped counter
    exact ⟨rfl, here⟩

variable {α : Type} {look : State → α} {first second : List EventRecord}
  (bytes : List UInt8) (payloads : List (List UInt8)) (start : SeqNo)

theorem put_within (entry : Entry) (cas : CasExpectation) :
    storeObserver.Within (fun state => state.put path entry cas) (AtPath .write path) := by
  refine within_of_changed true (fun before other location alike => ?_) fun state => ?_
  · have descendants := alike.hasDescendants path
    have version := alike.currentVersion path
    simp only [put, nextVersion, descendants, version]
    split
    · rfl
    · split <;> rfl
  · fun_cases put path state entry cas <;>
      first | exact .refl state | exact ⟨changedAt_insert _, .refl _, .refl _⟩

theorem writeFile_within :
    storeObserver.Within (fun state => state.writeFile path bytes) (AtPath .write path) :=
  (put_within (Entry.bytes bytes) .any).map fun result => result.map fun _ => ()

theorem appendFile_within :
    storeObserver.Within (fun state => state.appendFile path bytes) (AtPath .write path) := by
  refine within_of_changed true (fun before other location alike => ?_) fun state => ?_
  · have kindOf : ∀ found : Option StoredEntry, ((found.map (·.entry)).getD (Entry.bytes [])).kind =
        (found.map (·.entry.kind)).getD none := by
      rintro (_ | _) <;> rfl
    simp only [appendFile, kindOf, alike.kind path]
    split <;> rfl
  · dsimp only [appendFile]
    split
    · exact .refl state
    · exact ⟨changedAt_insert _, .refl _, .refl _⟩

theorem nextSeq_congr (seqs : first.map seq = second.map seq) :
    nextSeq first = nextSeq second := by
  have last := congrArg List.getLast? seqs
  rw [List.getLast?_map, List.getLast?_map] at last
  have next := congrArg (Option.map SeqNo.next) last
  rw [map_map, map_map] at next
  exact congrArg (getD · SeqNo.zero.next) next

theorem appendAll_congr (seqs : first.map seq = second.map seq) :
    (appendAll first payloads).1 = (appendAll second payloads).1 := by
  induction payloads generalizing first second with
  | nil => rfl
  | cons payload _ ih =>
    have next := nextSeq_congr seqs
    have grown : (first ++ [mk (nextSeq first) payload]).map seq =
        (second ++ [mk (nextSeq second) payload]).map seq := by
      simp [seqs, next]
    have later := ih grown
    rw [next] at later
    simp only [appendAll, next, later]

theorem append_within (payload : List UInt8) :
    storeObserver.Within (fun state => state.append path payload) (AtPath .write path) := by
  refine within_of_changed true (fun before other location alike => ?_)
    fun state => ⟨.refl _, changedAt_insert _, .refl _⟩
  exact congrArg Except.ok (nextSeq_congr (alike.seqs_at path).symm)

theorem appendBatch_within :
    storeObserver.Within (fun state => state.appendBatch path payloads) (AtPath .write path) := by
  refine within_of_changed true (fun before other location alike => ?_)
    fun state => ⟨.refl _, changedAt_insert _, .refl _⟩
  exact congrArg Except.ok (appendAll_congr payloads (alike.seqs_at path).symm)

theorem reserveSequence_within :
    storeObserver.Within (fun state => state.reserveSequence path) (AtPath .write path) := by
  refine within_of_changed true (fun before other location alike => ?_)
    fun state => ⟨.refl _, .refl _, changedAt_insert _⟩
  simp only [reserveSequence, alike.sequences]

theorem deleteIfVersion_within (expected : RecordVersion) :
    storeObserver.Within (fun state => state.deleteIfVersion path expected)
      (AtPath .delete path) := by
  refine within_of_changed false (fun before other location alike => ?_) fun state => ?_
  · simp only [deleteIfVersion, alike.currentVersion path]
    split
    · rfl
    · split <;> rfl
  · fun_cases deleteIfVersion path state expected <;>
      first | exact .refl state | exact ⟨changedAt_remove rfl, .refl _, .refl _⟩

/-! ## Reads at one path -/

theorem look_within
    (uses : ∀ first second : State, first.entries.get path = second.entries.get path →
      first.entries.keys = second.entries.keys →
      first.eventLogs.get path = second.eventLogs.get path → look first = look second) :
    storeObserver.Within (fun state => (look state, state)) (AtPath .read path) := by
  refine within_look fun before other location alike differs => ⟨rfl, ?_⟩
  by_contra different
  exact differs (uses other before (entries alike path (Ne.symm different)).symm
    (keys alike).symm (eventLogs alike path (Ne.symm different)).symm)

theorem get_within :
    storeObserver.Within (fun state => (state.get path, state)) (AtPath .read path) :=
  look_within fun first second same _ _ => by rw [State.get, State.get, same]

theorem readFile_within :
    storeObserver.Within (fun state => (state.readFile path, state)) (AtPath .read path) :=
  look_within fun first second same _ _ => by
    rw [readFile, readFile, State.get, State.get, same]

theorem readFileBounded_within (maxBytes : Nat) :
    storeObserver.Within (fun state => (state.readFileBounded path maxBytes, state))
      (AtPath .read path) :=
  look_within fun first second same keys _ => by
    have descendants : first.hasDescendants path = second.hasDescendants path := by
      rw [State.hasDescendants, State.hasDescendants, keys]
    simp only [readFileBounded, stat, State.get, descendants, same]

theorem tail_within :
    storeObserver.Within (fun state => (state.tail path start, state)) (AtPath .read path) :=
  look_within fun first second _ _ same => by
    rw [tail, tail, logAt, logAt, same]

theorem tailBounded_within (maxRecords : Nat) :
    storeObserver.Within (fun state => (state.tailBounded path start maxRecords, state))
      (AtPath .read path) :=
  look_within fun first second _ _ same => by
    rw [tailBounded, tailBounded, logAt, logAt, same]

theorem headSeq_within :
    storeObserver.Within (fun state => (state.headSeq path start, state)) (AtPath .read path) :=
  look_within fun first second _ _ same => by
    rw [headSeq, headSeq, tail, tail, logAt, logAt, same]

end

/-! ## Operations on a subtree -/

section

variable {path : VirtualPath}

theorem query_within (rules : UnicodeRules) (filter : Filter) (page : Page) :
    storeObserver.Within (fun state => (state.query path rules filter page, state))
      (AtOrBelow .read path) := by
  refine within_look fun before other location alike differs => ⟨rfl, ?_⟩
  by_contra outside
  refine differs ?_
  have rows : other.candidates path = before.candidates path := by
    unfold candidates
    rw [keys alike]
    refine List.filterMap_congr fun key listed => ?_
    obtain ⟨_, inside⟩ := Finset.mem_filter.mp ((Finset.mem_sort _).mp listed)
    have below : key = path ∨ isUnder path key = true :=
      inside.imp_left fun same => VirtualPath.ext (NormalizedPath.asStr_injective same)
    have different : key ≠ location := by
      rintro rfl
      exact outside (at_or_under_iff.mp below)
    rw [entries alike key different]
  rw [query, query, rows]

variable (state : State)

theorem State.sweep_changed {entries : Table VirtualPath StoredEntry}
    (changed : ChangedAt false (path.path.parts <+: ·.path.parts) state.entries entries) :
    state.Changed false (path.path.parts <+: ·.path.parts) (state.sweep path entries) := by
  have below : ∀ location : VirtualPath, (decide (location ≠ path) && !isUnder path location) =
      false → path.path.parts <+: location.path.parts := by
    intro location swept
    refine at_or_under_iff.mp (Decidable.or_iff_not_imp_left.mpr fun other => ?_)
    simpa [other] using swept
  refine ⟨changed.retain fun _ swept => at_or_under_iff.mp (.inr ?_),
    (ChangedAt.refl _).retain below, (ChangedAt.refl _).retain below⟩
  simpa using swept

theorem delete_gone (below : path.path.parts <+: location.path.parts) :
    (state.delete path).2.entries.get location = none := by
  have swept : ∀ entries : Table VirtualPath StoredEntry, entries.get path = none →
      (state.sweep path entries).entries.get location = none := by
    intro entries absent
    rw [sweep, get_retain]
    rcases at_or_under_iff.mpr below with rfl | under
    · rw [absent, ite_self]
    · rw [under]
      rfl
  dsimp only [delete]
  split
  · exact swept _ (get_remove_self _ _)
  next absent => split <;> exact swept _ (not_isSome_iff_eq_none.mp absent)

theorem delete_within :
    storeObserver.Within (fun state => state.delete path) (AtOrBelow .delete path) := by
  refine within_of_changed false (fun before other location alike => ?_) fun state => ?_
  · have present := alike.isSome_at path
    have keys := alike.keys
    have sweptKeys : (before.sweep path before.entries).entries.keys =
        (other.sweep path other.entries).entries.keys := by
      ext key
      rw [mem_keys, mem_keys, sweep, sweep, get_retain, get_retain]
      split
      · rw [alike.isSome_at key]
      · rfl
    simp only [delete, present, keys, sweptKeys]
    split
    · rfl
    · split <;> rfl
  · dsimp only [delete]
    split
    · exact state.sweep_changed (changedAt_remove List.prefix_rfl)
    · split <;> exact state.sweep_changed (.refl _)

end

end Ironclaw.Filesystem
