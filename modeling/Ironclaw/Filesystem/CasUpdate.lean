import Ironclaw.Filesystem.InMemory
import Ironclaw.Lib.Files

/-!
# The compare-and-set update helper

`cas_update` reads an entry with its version, lets the caller compute the next snapshot and
writes it back if the version still stands; a lost race is tried again, a bounded number of
times.  The caller may also decline to write.  Any number of calls work on one path, every
read and every conditional write a step of its own, and a call may be cut off at any point
by its deadline or a failing backend.
-/

namespace Ironclaw.Filesystem

open HostApi Lib RecordVersion Function Table Entry

/-- What `apply` answers: the next snapshot, the outcome of the call, and whether to write. -/
structure CasApply (S T : Type) where
  snapshot : S
  outcome : T
  write : Bool

inductive CasUpdateError (E : Type) where
  | apply (error : E)
  | timeout
  | retriesExhausted
  | casUnsupported
  | backend (error : FilesystemError)

def filesystemCasRetries : Nat := 32

/-- The closures of a call.  `apply` may look at more than the snapshot, at every run
anew. -/
structure CasCall (input S T E : Type) where
  decode : List UInt8 → Except E S
  encode : S → Except E Entry
  apply : input → Option S → Except E (CasApply S T)

/-- What an attempt makes of the entry it read. -/
inductive CasDecision (T E : Type) where
  | fail (error : E)
  | skip (outcome : T)
  | put (entry : Entry) (outcome : T)

section

variable {input S T E : Type} [BEq S]

/-- `decode`, `apply` and `encode` of one attempt. -/
def CasCall.attempt (call : CasCall input S T E) (seen : input) (current : Option Entry) :
    CasDecision T E :=
  match current.mapM fun entry => call.decode entry.body with
  | .error error => .fail error
  | .ok snapshot =>
    match call.apply seen snapshot with
    | .error error => .fail error
    | .ok next =>
      if !next.write then .skip next.outcome
      else if snapshot.any (· == next.snapshot) then .skip next.outcome
      else
        match call.encode next.snapshot with
        | .error error => .fail error
        | .ok entry => .put entry next.outcome

end

/-- Whether the advertised capabilities rule the call out; an unknown shape does not. -/
def capabilitiesRefuse (capabilities : Option TxnCapability) : Bool :=
  match capabilities with
  | none => false
  | some txn => txn ≠ .cas && txn ≠ .multiKey

/-- The next access of a call, with what it read. -/
inductive CasCaller (input S T E : Type) where
  | idle
  | reading (call : CasCall input S T E) (attempt : Nat)
  | writing (call : CasCall input S T E) (attempt : Nat) (read : Option (Cell Entry))
      (seen : input) (entry : Entry) (outcome : T)
  | returned (call : CasCall input S T E) (result : Except (CasUpdateError E) T)

structure Commit (ι input S T E : Type) where
  caller : ι
  call : CasCall input S T E
  seen : input
  outcome : T

structure CasUpdateState (ι input S T E : Type) where
  files : Files VirtualPath Entry
  callers : ι → CasCaller input S T E
  /-- The writes that took effect, in their order. -/
  commits : List (Commit ι input S T E)

inductive CasUpdateLabel (ι input S T E : Type) where
  | call (caller : ι) (call : CasCall input S T E)
  | read (caller : ι) (seen : input)
  | write (caller : ι)
  /-- The backend refuses conditional writes. -/
  | unsupported (caller : ι)
  /-- An access fails or the deadline passes; a write under way may have taken effect. -/
  | cutOff (caller : ι) (error : Option FilesystemError) (applied : Bool)

section

variable {ι input S T E : Type} [DecidableEq ι] [BEq S]

namespace CasUpdateState

def move (state : CasUpdateState ι input S T E) (caller : ι) (next : CasCaller input S T E) :
    CasUpdateState ι input S T E :=
  { state with callers := update state.callers caller next }

/-- The state after a conditional write, if it succeeds. -/
def written (path : VirtualPath) (state : CasUpdateState ι input S T E) (caller : ι)
    (call : CasCall input S T E) (read : Option (Cell Entry)) (seen : input) (entry : Entry)
    (outcome : T) : Option (CasUpdateState ι input S T E) :=
  match state.files.put path entry (read.map Cell.version) with
  | (none, _) => none
  | (some _, files) =>
    some { state with
      files
      commits := state.commits ++ [⟨caller, call, seen, outcome⟩] }

def apply (capabilities : Option TxnCapability) (path : VirtualPath)
    (state : CasUpdateState ι input S T E) :
    CasUpdateLabel ι input S T E → CasUpdateState ι input S T E
  | .call caller call =>
    match state.callers caller with
    | .idle =>
      state.move caller (if capabilitiesRefuse capabilities then
        .returned call (.error .casUnsupported) else .reading call 0)
    | _ => state
  | .read caller seen =>
    match state.callers caller with
    | .reading call attempt =>
      let file := state.files.get path
      state.move caller (match call.attempt seen (file.map Cell.value) with
        | .fail error => .returned call (.error (.apply error))
        | .skip outcome => .returned call (.ok outcome)
        | .put entry outcome => .writing call attempt file seen entry outcome)
    | _ => state
  | .write caller =>
    match state.callers caller with
    | .writing call attempt read seen entry outcome =>
      match state.written path caller call read seen entry outcome with
      | some next => next.move caller (.returned call (.ok outcome))
      | none =>
        state.move caller (if attempt + 1 < filesystemCasRetries then
          .reading call (attempt + 1) else .returned call (.error .retriesExhausted))
    | _ => state
  | .unsupported caller =>
    match state.callers caller with
    | .writing call _ _ _ _ _ => state.move caller (.returned call (.error .casUnsupported))
    | _ => state
  | .cutOff caller error applied =>
    let reported : CasUpdateError E := error.elim .timeout .backend
    match state.callers caller with
    | .reading call _ => state.move caller (.returned call (.error reported))
    | .writing call _ read seen entry outcome =>
      let after := (state.written path caller call read seen entry outcome).getD state
      (if applied then after else state).move caller (.returned call (.error reported))
    | _ => state

end CasUpdateState

/-- Any number of calls on one path, over a backend with conditional writes. -/
def casUpdateRuns (capabilities : Option TxnCapability) (path : VirtualPath)
    (start : Files VirtualPath Entry) :
    System (CasUpdateState ι input S T E) (CasUpdateLabel ι input S T E) :=
  .ofFunction (fun state => state = ⟨start, fun _ => .idle, []⟩)
    (CasUpdateState.apply capabilities path)

end

/-! ## The writes of a call -/

section

variable {ι input S T E : Type} [DecidableEq ι]

def commitsOf (caller : ι) (commits : List (Commit ι input S T E)) : List (Commit ι input S T E) :=
  commits.filter fun commit => commit.caller = caller

end

/-! ## Sequential composition -/

variable {start : Option Entry}

section

variable {ι input S T E : Type} [BEq S]

/-- The calls of the commits, run one after another, lead from one content of the path to
another. -/
inductive Composes : Option Entry → List (Commit ι input S T E) → Option Entry → Prop where
  | nil (start : Option Entry) : Composes start [] start
  | snoc {start middle : Option Entry} {commits : List (Commit ι input S T E)}
      {commit : Commit ι input S T E} {entry : Entry} :
      Composes start commits middle →
      commit.call.attempt commit.seen middle = .put entry commit.outcome →
      Composes start (commits ++ [commit]) (some entry)

/-- The call decided on a content that the path really had. -/
def DecidedOn (start : Option Entry) (commits : List (Commit ι input S T E))
    (call : CasCall input S T E) (outcome : T) : Prop :=
  ∃ earlier content seen, earlier <+: commits ∧ Composes start earlier content ∧
    call.attempt seen content = .skip outcome

theorem DecidedOn.snoc {commits : List (Commit ι input S T E)}
    {call : CasCall input S T E} {outcome : T} (decided : DecidedOn start commits call outcome)
    (commit : Commit ι input S T E) : DecidedOn start (commits ++ [commit]) call outcome := by
  obtain ⟨earlier, content, seen, early, composes, skipped⟩ := decided
  exact ⟨earlier, content, seen, early.trans (List.prefix_append _ _), composes, skipped⟩

variable [DecidableEq ι]

/-- The errors a call reports only if it wrote nothing. -/
def CasUpdateError.NoEffect {E : Type} : CasUpdateError E → Prop
  | .apply _ | .retriesExhausted | .casUnsupported => True
  | .timeout | .backend _ => False

/-- What the result of a call says about its writes. -/
def Accounted (start : Option Entry) (commits : List (Commit ι input S T E)) (caller : ι) :
    CasCaller input S T E → Prop
  | .returned call (.ok outcome) =>
    (∃ seen, commitsOf caller commits = [⟨caller, call, seen, outcome⟩]) ∨
      commitsOf caller commits = [] ∧ DecidedOn start commits call outcome
  | .returned _ (.error error) => error.NoEffect → commitsOf caller commits = []
  | _ => commitsOf caller commits = []

theorem Accounted.snoc {commits : List (Commit ι input S T E)}
    {caller other : ι} {phase : CasCaller input S T E}
    (accounted : Accounted start commits other phase) (different : other ≠ caller)
    (call : CasCall input S T E) (seen : input) (outcome : T) :
    Accounted start (commits ++ [⟨caller, call, seen, outcome⟩]) other phase := by
  have same : commitsOf other (commits ++ [⟨caller, call, seen, outcome⟩]) =
      commitsOf other commits := by
    simp [commitsOf, Ne.symm different]
  match phase, accounted with
  | .idle, unwritten => exact same.trans unwritten
  | .reading _ _, unwritten => exact same.trans unwritten
  | .writing _ _ _ _ _ _, unwritten => exact same.trans unwritten
  | .returned _ (.ok _), .inl ⟨once, found⟩ => exact .inl ⟨once, same.trans found⟩
  | .returned _ (.ok _), .inr ⟨unwritten, decided⟩ =>
    exact .inr ⟨same.trans unwritten, decided.snoc _⟩
  | .returned _ (.error _), unwritten => exact fun harmless => same.trans (unwritten harmless)

end

/-! ## Reads that still stand -/

/-- A read still stands, or a newer write has come since. -/
def StandsOrOld (read file : Option (Cell Entry)) : Prop :=
  read = file ∨ ∃ current, file = some current ∧
    ∀ seen, read = some seen → seen.version < current.version

variable {read file : Option (Cell Entry)}

theorem StandsOrOld.eq_of_version (known : StandsOrOld read file)
    (same : file.map Cell.version = read.map Cell.version) : read = file := by
  rcases known with stands | ⟨current, rfl, older⟩
  · exact stands
  cases read with
  | none => cases same
  | some seen =>
    have bound := older seen rfl
    have equal : current.version = seen.version := by simpa using same
    omega

theorem StandsOrOld.overwritten (known : StandsOrOld read file) (entry : Entry) :
    StandsOrOld read (some ⟨entry, (file.map Cell.version).elim 1 (· + 1)⟩) := by
  refine .inr ⟨_, rfl, fun seen present => ?_⟩
  rcases known with rfl | ⟨_, rfl, older⟩
  · rw [present]
    exact Nat.lt_succ_self _
  · exact Nat.lt_succ_of_lt (older seen present)

/-! ## The reference backend as versioned files -/

/-- The entries of the backend are the files. -/
def State.Represents (state : State) (files : Files VirtualPath Entry) : Prop :=
  ∀ path, (state.entries.get path).map (fun stored => ⟨stored.entry, stored.version.value⟩) =
    files.get path

namespace State.Represents

variable {state : State} {files : Files VirtualPath Entry} {path : VirtualPath}

variable (represents : state.Represents files)
include represents

theorem version (path : VirtualPath) :
    (files.get path).map Cell.version = (state.currentVersion path).map value := by
  rw [← represents path, currentVersion, Option.map_map, Option.map_map]
  rfl

theorem insert (path : VirtualPath) (entry : Entry) (version : RecordVersion) :
    State.Represents { state with entries := state.entries.insert path ⟨entry, version⟩ }
      (files.insert path ⟨entry, version.value⟩) := by
  intro other
  rw [get_insert, get_insert]
  split
  · rfl
  · exact represents other

/-- Below the greatest version, and where no entries lie under the path, a conditional write
is the write of the versioned file. -/
theorem put_refines (entry : Entry) (expected : Option RecordVersion)
    (leaf : state.hasDescendants path = false)
    (room : ∀ current, state.currentVersion path = some current → current.value < u64Max) :
    let done := state.put path entry (expected.elim .absent .version)
    let file := files.put path entry (expected.map value)
    done.1.toOption.map value = file.1 ∧ done.2.Represents file.2 := by
  have checked : ∀ found, checkCas path (expected.elim .absent .version) found = .ok () ↔
      found = expected := by
    intro found
    cases expected <;> cases found <;> simp [checkCas]
  have decided : (files.get path).map Cell.version = expected.map value ↔
      state.currentVersion path = expected := by
    rw [represents.version path]
    refine (Option.map_injective fun first second equal => ?_).eq_iff
    cases first
    cases second
    simpa using equal
  simp only [Files.put, decided]
  unfold State.put
  rw [if_neg (by rw [leaf]; exact Bool.false_ne_true)]
  cases answered : checkCas path (expected.elim .absent .version) (state.currentVersion path) with
  | error =>
    rw [if_neg fun same => by rw [(checked _).mpr same] at answered; cases answered]
    exact ⟨rfl, represents⟩
  | ok accepted =>
    have same := (checked _).mp answered
    have next : (state.nextVersion path).value =
        (expected.map value).elim 1 (· + 1) := by
      rw [nextVersion, same]
      cases expected with
      | none => rfl
      | some current => exact Nat.min_eq_left (room current same)
    rw [if_pos same, ← next]
    exact ⟨rfl, represents.insert path entry _⟩

end State.Represents

section

variable {ι input S T E : Type} [DecidableEq ι] [BEq S]

/-- A pending write was computed from a content that stands or is old. -/
def CasCaller.Computed (file : Option (Cell Entry)) : CasCaller input S T E → Prop
  | .writing call _ read seen entry outcome =>
    StandsOrOld read file ∧ call.attempt seen (read.map Cell.value) = .put entry outcome
  | _ => True

theorem CasCaller.Computed.overwritten
    {phase : CasCaller input S T E} (computed : phase.Computed file) (entry : Entry) :
    phase.Computed (some ⟨entry, (file.map Cell.version).elim 1 (· + 1)⟩) := by
  cases phase with
  | writing => exact ⟨computed.1.overwritten entry, computed.2⟩
  | _ => trivial

/-- The content of the path is what the commits make of the start, pending writes are
computed from what was read, and every result accounts for its writes. -/
structure CasUpdateState.Consistent (path : VirtualPath) (start : Option Entry)
    (state : CasUpdateState ι input S T E) : Prop where
  composes : Composes start state.commits ((state.files.get path).map Cell.value)
  pending : ∀ caller, (state.callers caller).Computed (state.files.get path)
  accounted : ∀ caller, Accounted start state.commits caller (state.callers caller)

namespace CasUpdateState.Consistent

variable {path : VirtualPath} {start : Option Entry} {state : CasUpdateState ι input S T E}

theorem accounted_at (consistent : state.Consistent path start) {caller : ι}
    {phase : CasCaller input S T E} (here : state.callers caller = phase) :
    Accounted start state.commits caller phase :=
  here ▸ consistent.accounted caller

theorem move (consistent : state.Consistent path start) (caller : ι)
    {next : CasCaller input S T E} (computed : next.Computed (state.files.get path))
    (accounted : Accounted start state.commits caller next) :
    (state.move caller next).Consistent path start where
  composes := consistent.composes
  pending := (forall_update_iff state.callers fun _ phase =>
    phase.Computed (state.files.get path)).mpr
      ⟨computed, fun other _ => consistent.pending other⟩
  accounted := (forall_update_iff state.callers fun other phase =>
    Accounted start state.commits other phase).mpr
      ⟨accounted, fun other _ => consistent.accounted other⟩

theorem commit (consistent : state.Consistent path start) {caller : ι}
    {call : CasCall input S T E} {attempt : Nat} {seen : input} {entry : Entry} {outcome : T}
    (writing : state.callers caller = .writing call attempt read seen entry outcome)
    {next : CasUpdateState ι input S T E}
    (done : state.written path caller call read seen entry outcome = some next)
    {result : Except (CasUpdateError E) T}
    (accounted : Accounted start (state.commits ++ [⟨caller, call, seen, outcome⟩]) caller
      (.returned call result)) :
    (next.move caller (.returned call result)).Consistent path start := by
  have pending := consistent.pending caller
  rw [writing] at pending
  obtain ⟨known, computed⟩ := pending
  have version : (state.files.get path).map Cell.version = read.map Cell.version := by
    by_contra different
    simp [written, Files.put, different] at done
  have stands := known.eq_of_version version
  have made : { state with
      files := state.files.insert path
        ⟨entry, ((state.files.get path).map Cell.version).elim 1 (· + 1)⟩
      commits := state.commits ++ [⟨caller, call, seen, outcome⟩] } = next := by
    simpa [written, Files.put, version] using done
  subst made
  have stored : (state.files.insert path
      ⟨entry, ((state.files.get path).map Cell.version).elim 1 (· + 1)⟩).get path =
        some ⟨entry, ((state.files.get path).map Cell.version).elim 1 (· + 1)⟩ :=
    get_insert_self _ _ _
  rw [stands] at computed
  refine ⟨?_, ?_, ?_⟩
  · dsimp only [CasUpdateState.move]
    rw [stored]
    exact consistent.composes.snoc computed
  · refine (forall_update_iff state.callers fun _ phase => phase.Computed _).mpr
      ⟨trivial, fun other _ => ?_⟩
    dsimp only [CasUpdateState.move]
    rw [stored]
    exact (consistent.pending other).overwritten entry
  · refine (forall_update_iff state.callers fun other phase =>
      Accounted start _ other phase).mpr ⟨accounted, fun other different => ?_⟩
    exact (consistent.accounted other).snoc different call seen outcome

end CasUpdateState.Consistent

theorem CasUpdateState.consistent_apply {capabilities : Option TxnCapability} {path : VirtualPath}
    {state : CasUpdateState ι input S T E}
    (consistent : state.Consistent path start) (label : CasUpdateLabel ι input S T E) :
    (state.apply capabilities path label).Consistent path start := by
  have excused : ∀ (error : Option _) commits (caller : ι) call, Accounted start commits caller
      (.returned call (.error (error.elim .timeout .backend)) : CasCaller input S T E) := by
    rintro (_ | error) <;> exact fun _ _ _ harmful => harmful.elim
  cases label with
  | call caller call =>
    dsimp only [apply]
    cases phase : state.callers caller with
    | idle =>
      have unwritten := consistent.accounted_at phase
      dsimp only
      split_ifs
      · exact consistent.move caller trivial fun _ => unwritten
      · exact consistent.move caller trivial unwritten
    | _ => exact consistent
  | read caller seen =>
    dsimp only [apply]
    cases phase : state.callers caller with
    | reading call =>
      have unwritten := consistent.accounted_at phase
      dsimp only
      cases computed : call.attempt seen ((state.files.get path).map Cell.value) with
      | fail => exact consistent.move caller trivial fun _ => unwritten
      | skip =>
        refine consistent.move caller trivial (.inr ⟨unwritten, ?_⟩)
        exact ⟨state.commits, _, seen, List.prefix_rfl, consistent.composes, computed⟩
      | put => exact consistent.move caller ⟨.inl rfl, computed⟩ unwritten
    | _ => exact consistent
  | write caller =>
    dsimp only [apply]
    cases phase : state.callers caller with
    | writing call attempt read seen entry outcome =>
      have unwritten := consistent.accounted_at phase
      dsimp only
      cases done : state.written path caller call read seen entry outcome with
      | some =>
        refine consistent.commit phase done (.inl ⟨seen, ?_⟩)
        rw [commitsOf, List.filter_append]
        change commitsOf caller _ ++ _ = _
        rw [unwritten]
        simp
      | none =>
        dsimp only
        split_ifs
        · exact consistent.move caller trivial unwritten
        · exact consistent.move caller trivial fun _ => unwritten
    | _ => exact consistent
  | unsupported caller =>
    dsimp only [apply]
    cases phase : state.callers caller with
    | writing => exact consistent.move caller trivial fun _ => consistent.accounted_at phase
    | _ => exact consistent
  | cutOff caller error applied =>
    dsimp only [apply]
    cases phase : state.callers caller with
    | reading => exact consistent.move caller trivial (excused _ _ caller _)
    | writing call attempt read seen entry outcome =>
      dsimp only
      split_ifs
      · cases done : state.written path caller call read seen entry outcome with
        | none => exact consistent.move caller trivial (excused _ _ caller _)
        | some => exact consistent.commit phase done (excused _ _ caller _)
      · exact consistent.move caller trivial (excused _ _ caller _)
    | _ => exact consistent

/-- No update is lost: the content of the path is the composition of the calls that wrote, in
the order of their writes; a call that returned an outcome wrote exactly once or declined on
a content the path really had, and one that failed, gave up or was refused wrote nothing. -/
theorem casUpdateRuns.no_lost_update {capabilities : Option TxnCapability} {path : VirtualPath}
    {start : Files VirtualPath Entry} {state : CasUpdateState ι input S T E}
    (reached : (casUpdateRuns capabilities path start).Reachable System.anyStep state) :
    Composes ((start.get path).map Cell.value) state.commits
        ((state.files.get path).map Cell.value) ∧
      (∀ caller call outcome, state.callers caller = .returned call (.ok outcome) →
        (∃ seen, commitsOf caller state.commits = [⟨caller, call, seen, outcome⟩]) ∨
          commitsOf caller state.commits = [] ∧
            DecidedOn ((start.get path).map Cell.value) state.commits call outcome) ∧
      ∀ caller call error, state.callers caller = .returned call (.error error) →
        error.NoEffect → commitsOf caller state.commits = [] := by
  have consistent : state.Consistent path ((start.get path).map Cell.value) := by
    refine reached.invariant (CasUpdateState.Consistent path _) ?_ ?_
    · rintro _ rfl
      exact ⟨.nil _, fun _ => trivial, fun _ => rfl⟩
    · rintro before label _ consistent _ rfl
      exact before.consistent_apply consistent label
  exact ⟨consistent.composes, fun _ _ _ returned => consistent.accounted_at returned,
    fun _ _ _ returned => consistent.accounted_at returned⟩

end

/-- A call that counts itself in the length of the entry. -/
def countCall : CasCall Unit Nat Nat Empty where
  decode bytes := .ok bytes.length
  encode count := .ok (bytes (List.replicate count 0))
  apply _ count := .ok ⟨count.getD 0 + 1, count.getD 0 + 1, true⟩

def countPath : VirtualPath :=
  ⟨⟨["projects".toList, "count".toList], by decide, by decide⟩, by decide⟩

/-- A put with the version of the stored entry raises it, one with another version is refused. -/
theorem second_put_refines :
    let state := (State.new.put countPath (bytes [0]) .absent).2
    let files := (Files.put countPath (bytes [0]) none Table.empty).2
    let raised := state.put countPath (bytes [1]) (.version ⟨1⟩)
    let stale := state.put countPath (bytes [1]) (.version ⟨7⟩)
    raised.1.toOption.map value = some 2 ∧
      raised.2.Represents (files.put countPath (bytes [1]) (some 1)).2 ∧
      stale.1.toOption.map value = none ∧
      stale.2.Represents (files.put countPath (bytes [1]) (some 7)).2 := by
  have start : State.new.Represents Table.empty := fun _ => rfl
  have first : (State.new.put countPath (bytes [0]) .absent).2.Represents
      (Files.put countPath (bytes [0]) none Table.empty).2 :=
    (start.put_refines (bytes [0]) none (by decide) (by rintro _ ⟨⟩)).2
  have room : ∀ current, (State.new.put countPath (bytes [0]) .absent).2.currentVersion countPath =
      some current → current.value < u64Max := by
    rintro _ ⟨⟩
    decide
  have raised := first.put_refines (bytes [1]) (some ⟨1⟩) (by decide) room
  have stale := first.put_refines (bytes [1]) (some ⟨7⟩) (by decide) room
  exact ⟨raised.1, raised.2, stale.1, stale.2⟩

/-- Both calls read before either writes; the second write is refused and tried again. -/
def raceOfCounts : List (CasUpdateLabel Bool Unit Nat Nat Empty) :=
  [.call true countCall, .call false countCall, .read true (), .read false (), .write true,
    .write false, .read false (), .write false]

theorem raceOfCounts_no_lost_update :
    let state := raceOfCounts.foldl (CasUpdateState.apply (some .cas) countPath)
      ⟨.empty, fun _ => .idle, []⟩
    (state.files.get countPath).map Cell.value = some (bytes [0, 0]) ∧
      state.callers false = .returned countCall (.ok 2) ∧
      Composes none state.commits (some (bytes [0, 0])) := by
  have started : (casUpdateRuns (some .cas) countPath .empty).Reachable System.anyStep
      (⟨.empty, fun _ => .idle, []⟩ : CasUpdateState Bool Unit Nat Nat Empty) := .start rfl
  have kept := (casUpdateRuns.no_lost_update (started.follow raceOfCounts)).1
  exact ⟨rfl, rfl, kept⟩

end Ironclaw.Filesystem
