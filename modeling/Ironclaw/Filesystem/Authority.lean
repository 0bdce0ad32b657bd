import Mathlib.Data.Fintype.Basic
import Ironclaw.HostApi.Mount
import Ironclaw.Lib.Segments

/-!
# The authority of a mount view

A mount view lets its holder perform an operation at a virtual path if some scoped path
resolves there with a grant that permits the operation.  A narrowed view keeps some mounts
of its parent with fewer permissions, but a mount it leaves out may have stood between a
broader mount and what lies below it.
-/

namespace Ironclaw.Filesystem

open HostApi
open Lib MountView NormalizedPath VirtualPath
open List

inductive FilesystemOperation where
  | mountLocal
  | connect
  | readFile
  | writeFile
  | appendFile
  | listDir
  | stat
  | delete
  | createDirAll
  | query
  | ensureIndex
  | beginTxn
  | append
  | tail
  | headSeq
  | reserveSeq
  deriving DecidableEq

instance : Fintype FilesystemOperation :=
  Fintype.ofList [.mountLocal, .connect, .readFile, .writeFile, .appendFile, .listDir, .stat,
    .delete, .createDirAll, .query, .ensureIndex, .beginTxn, .append, .tail, .headSeq, .reserveSeq]
    fun operation => by cases operation <;> decide

def operationAllowed (permissions : MountPermissions) : FilesystemOperation → Bool
  | .readFile => permissions.read
  | .writeFile | .appendFile | .createDirAll | .ensureIndex | .beginTxn | .append | .reserveSeq =>
    permissions.write
  | .listDir => permissions.list
  | .stat => permissions.read || permissions.list
  | .delete => permissions.delete
  | .mountLocal | .connect => false
  | .query => permissions.read && permissions.list
  | .tail | .headSeq => permissions.read

theorem operationAllowed_mono {self parent : MountPermissions} {operation : FilesystemOperation}
    (subset : self.isSubsetOf parent = true) (allowed : operationAllowed self operation = true) :
    operationAllowed parent operation = true := by
  obtain ⟨_, _, _, _, _⟩ := self
  simp only [MountPermissions.isSubsetOf, Bool.and_eq_true, Bool.or_eq_true,
    Bool.not_eq_true'] at subset
  cases operation <;> simp only [operationAllowed, Bool.and_eq_true, Bool.or_eq_true] at allowed ⊢
  all_goals grind

variable (view : MountView)

/-- Some scoped path resolves to the location with a grant that permits the operation. -/
def Reaches (location : VirtualPath) (operation : FilesystemOperation) : Prop :=
  ∃ path grant, view.resolveWithGrant path = .ok (location, grant) ∧
    operationAllowed grant.permissions operation = true

/-! ## Authority mount by mount -/

/-- The mount that the path behind an alias resolves through. -/
def mountBehind (mount : MountGrant) (rest : List Text) : Option MountGrant :=
  view.mountFor (joinSegments '/' (mount.mountAlias.path.parts ++ rest))

/-- A mount of the view leads to the location and permits the operation. -/
def Grants (location : List Text) (operation : FilesystemOperation) : Prop :=
  ∃ mount ∈ view.mounts, mount.target.path.parts <+: location ∧
    mountBehind view mount (location.drop mount.target.path.parts.length) = some mount ∧
    operationAllowed mount.permissions operation = true

instance (view : MountView) (location : List Text) (operation : FilesystemOperation) :
    Decidable (Grants view location operation) :=
  inferInstanceAs (Decidable (∃ mount ∈ view.mounts, _))

section

variable {view : MountView} {mount : MountGrant} {rest : List Text} {location : VirtualPath}
  {operation : FilesystemOperation}

theorem grants_append (routed : mountBehind view mount rest = some mount)
    (allowed : operationAllowed mount.permissions operation = true) :
    Grants view (mount.target.path.parts ++ rest) operation :=
  ⟨mount, mem_of_mountFor routed, prefix_append _ _, by rw [drop_left, routed], allowed⟩

/-- Authority is what the mounts grant, in every view. -/
theorem grants_iff_reaches :
    Grants view location.path.parts operation ↔ Reaches view location operation := by
  constructor
  · rintro ⟨mount, _, ⟨rest, shape⟩, routed, allowed⟩
    rw [← shape, drop_left] at routed
    have wellFormed : ∀ part ∈ rest, IsPart part := fun part listed =>
      location.path.wellFormed part (shape ▸ mem_append_right _ listed)
    have same : mount.target.append rest wellFormed = location := ext (ext shape)
    refine ⟨⟨mount.mountAlias.path.append rest wellFormed⟩, mount, ?_, allowed⟩
    rw [← same]
    exact @resolveWithGrant_of_mountFor view
      ⟨mount.mountAlias.path.append rest wellFormed⟩ mount routed rest rfl wellFormed
  · rintro ⟨_, _, resolved, allowed⟩
    obtain ⟨found, _, parts, shape⟩ := resolveWithGrant_ok resolved
    rw [shape]
    refine grants_append ?_ allowed
    rw [mountBehind, ← parts]
    exact found

theorem mountBehind_congr {other : List Text} (wellFormed : ∀ part ∈ rest, IsPart part)
    (otherFormed : ∀ part ∈ other, IsPart part) (agree : ∀ grant ∈ view.mounts,
      grant.mountAlias.path.parts <+: mount.mountAlias.path.parts ++ rest ↔
        grant.mountAlias.path.parts <+: mount.mountAlias.path.parts ++ other) :
    mountBehind view mount rest = mountBehind view mount other :=
  @mountFor_congr view (mount.mountAlias.path.append rest wellFormed)
    (mount.mountAlias.path.append other otherFormed) agree

end

/-! ## Where authority changes -/

def aliases : List (List Text) := view.mounts.map (·.mountAlias.path.parts)

/-- The targets of the mounts, and below them the places where a nested alias takes over. -/
def grantPoints : List (List Text) :=
  view.mounts.flatMap fun grant =>
    (tailsBelow grant.mountAlias.path.parts (aliases view)).map (grant.target.path.parts ++ ·)

/-- Behind the alias and the target of a mount, the tails at which the mount that takes the
path or the grants of the parent may change. -/
def breakpoints (child parent : MountView) (mount : MountGrant) : List (List Text) :=
  tailsBelow mount.mountAlias.path.parts (aliases child ++ aliases parent) ++
    tailsBelow mount.target.path.parts (grantPoints parent)

section

variable {child parent view : MountView} {mount : MountGrant} {rest other : List Text}
  {operation : FilesystemOperation}

theorem mem_aliases (listed : mount ∈ view.mounts) : mount.mountAlias.path.parts ∈ aliases view :=
  mem_map_of_mem listed

theorem mem_grantPoints {location : List Text} :
    location ∈ grantPoints view ↔ ∃ grant ∈ view.mounts, ∃ nested ∈ view.mounts, ∃ tail,
      grant.mountAlias.path.parts ++ tail = nested.mountAlias.path.parts ∧
        location = grant.target.path.parts ++ tail := by
  simp only [grantPoints, aliases, mem_flatMap, mem_map, mem_tailsBelow]
  constructor
  · rintro ⟨grant, listed, tail, ⟨nested, inView, same⟩, shape⟩
    exact ⟨grant, listed, nested, inView, tail, same.symm, shape.symm⟩
  · rintro ⟨grant, listed, nested, inView, tail, same, shape⟩
    exact ⟨grant, listed, tail, ⟨nested, inView, same.symm⟩, shape.symm⟩

theorem breakpoints_wellFormed (listed : rest ∈ breakpoints child parent mount) :
    ∀ part ∈ rest, IsPart part := by
  intro part inRest
  rcases mem_append.mp listed with nested | below
  · have behind := mem_tailsBelow.mp nested
    rcases mem_append.mp behind with inChild | inParent
    · obtain ⟨grant, _, same⟩ := mem_map.mp inChild
      exact grant.mountAlias.path.wellFormed part (same ▸ mem_append_right _ inRest)
    · obtain ⟨grant, _, same⟩ := mem_map.mp inParent
      exact grant.mountAlias.path.wellFormed part (same ▸ mem_append_right _ inRest)
  · obtain ⟨grant, _, nested, _, tail, same, shape⟩ := mem_grantPoints.mp (mem_tailsBelow.mp below)
    have inLocation : part ∈ grant.target.path.parts ++ tail := shape ▸ mem_append_right _ inRest
    rcases mem_append.mp inLocation with inTarget | inTail
    · exact grant.target.path.wellFormed part inTarget
    · exact nested.mountAlias.path.wellFormed part (same ▸ mem_append_right _ inTail)

/-- What a view grants behind a target depends only on the grant points passed. -/
theorem Grants.congr (otherFormed : ∀ part ∈ mount.target.path.parts ++ other, IsPart part)
    (wellFormed : ∀ part ∈ mount.target.path.parts ++ rest, IsPart part)
    (agree : ∀ tail ∈ tailsBelow mount.target.path.parts (grantPoints view),
      tail <+: rest ↔ tail <+: other)
    (granted : Grants view (mount.target.path.parts ++ rest) operation) :
    Grants view (mount.target.path.parts ++ other) operation := by
  obtain ⟨grant, listed, ⟨tail, shape⟩, routed, allowed⟩ := granted
  rw [← shape, drop_left] at routed
  have point : grant.target.path.parts ∈ grantPoints view :=
    mem_grantPoints.mpr ⟨grant, listed, grant, listed, [], append_nil _, (append_nil _).symm⟩
  obtain ⟨_, otherShape⟩ := (prefix_append_congr agree point).mp ⟨tail, shape⟩
  rw [← otherShape]
  refine grants_append ?_ allowed
  rw [← routed]
  symm
  refine mountBehind_congr
    (fun part inTail => wellFormed part (shape ▸ mem_append_right _ inTail))
    (fun part inTail => otherFormed part (otherShape ▸ mem_append_right _ inTail)) ?_
  intro _ inView
  refine prefix_append_congr (fun passed below => ?_) (mem_aliases inView)
  obtain ⟨taker, inMounts, same⟩ := mem_map.mp (mem_tailsBelow.mp below)
  have further : grant.target.path.parts ++ passed ∈ grantPoints view :=
    mem_grantPoints.mpr ⟨grant, listed, taker, inMounts, passed, same.symm, rfl⟩
  rw [← prefix_append_right_inj grant.target.path.parts, shape,
    prefix_append_congr agree further, ← otherShape, prefix_append_right_inj]

/-- Behind a mount every tail is taken and granted as a breakpoint is, or as no tail is. -/
theorem exists_breakpoint (child parent : MountView) (mount : MountGrant)
    (wellFormed : ∀ part ∈ rest, IsPart part) :
    ∃ point, (point = [] ∨ point ∈ breakpoints child parent mount) ∧
      mountBehind child mount point = mountBehind child mount rest ∧
      (∀ grant ∈ parent.mounts,
        grant.mountAlias.path.parts <+: mount.mountAlias.path.parts ++ rest →
          grant.mountAlias.path.parts <+: mount.mountAlias.path.parts ++ point) ∧
      ∀ operation, Grants parent (mount.target.path.parts ++ point) operation →
        Grants parent (mount.target.path.parts ++ rest) operation := by
  obtain ⟨point, isPoint, starts, agree⟩ :=
    exists_representative (breakpoints child parent mount) rest
  have pointFormed : ∀ part ∈ point, IsPart part := fun part inPoint =>
    wellFormed part (starts.subset inPoint)
  have same : ∀ grant, grant ∈ child.mounts ∨ grant ∈ parent.mounts →
      (grant.mountAlias.path.parts <+: mount.mountAlias.path.parts ++ rest ↔
        grant.mountAlias.path.parts <+: mount.mountAlias.path.parts ++ point) := fun _ listed =>
    prefix_append_congr (fun passed below => agree passed (mem_append_left _ below))
      (mem_append.mpr (listed.imp mem_aliases mem_aliases))
  refine ⟨point, mem_cons.mp isPoint, ?_, fun grant listed => (same grant (.inr listed)).mp,
    fun operation => Grants.congr (mount.target.path.append rest wellFormed).wellFormed
      (mount.target.path.append point pointFormed).wellFormed fun passed below =>
        (agree passed (mem_append_right _ below)).symm⟩
  exact mountBehind_congr pointFormed wellFormed fun grant listed => (same grant (.inl listed)).symm

end

/-! ## Narrowing -/

/-- A mount of the view has an alias nested below the given one that matches the path. -/
def NestedBelow (mount : MountGrant) (rest : List Text) : Prop :=
  ∃ nested ∈ view.mounts, nested.mountAlias ≠ mount.mountAlias ∧
    mount.mountAlias.path.parts <+: nested.mountAlias.path.parts ∧
    nested.mountAlias.path.parts <+: mount.mountAlias.path.parts ++ rest

instance (view : MountView) (mount : MountGrant) (rest : List Text) :
    Decidable (NestedBelow view mount rest) :=
  inferInstanceAs (Decidable (∃ nested ∈ view.mounts, _))

/-- Where the child takes a path that a nested alias takes in the parent, the parent grants
the location anyway.  This compares the mounts of the two views at finitely many places. -/
def CoversExposed (child parent : MountView) : Prop :=
  ∀ mount ∈ child.mounts, ∀ rest ∈ breakpoints child parent mount,
    mountBehind child mount rest = some mount → NestedBelow parent mount rest →
      ∀ operation, operationAllowed mount.permissions operation = true →
        Grants parent (mount.target.path.parts ++ rest) operation

instance (child parent : MountView) : Decidable (CoversExposed child parent) :=
  inferInstanceAs (Decidable (∀ mount ∈ child.mounts, _))

section

variable {child parent : MountView} {mount : MountGrant} {rest : List Text}
  {location : VirtualPath} {operation : FilesystemOperation}

theorem exists_parent (subset : child.isSubsetOf parent = true) (listed : mount ∈ child.mounts) :
    ∃ source ∈ parent.mounts, source.mountAlias = mount.mountAlias ∧ source.target = mount.target ∧
      mount.permissions.isSubsetOf source.permissions = true := by
  have kept := all_eq_true.mp subset mount listed
  obtain ⟨source, inParent, same⟩ := any_eq_true.mp kept
  simp only [Bool.and_eq_true, decide_eq_true_eq] at same
  refine ⟨source, inParent, same.1.1.symm, ?_, same.2⟩
  exact ext (asStr_injective same.1.2.symm)

/-- Where no nested alias of the parent matches, the parent resolves the path through the
mount the child's one comes from. -/
theorem grants_of_not_nestedBelow (valid : parent.validate = .ok ())
    (subset : child.isSubsetOf parent = true) (listed : mount ∈ child.mounts)
    (wellFormed : ∀ part ∈ rest, IsPart part) (plain : ¬NestedBelow parent mount rest)
    (allowed : operationAllowed mount.permissions operation = true) :
    Grants parent (mount.target.path.parts ++ rest) operation := by
  obtain ⟨source, inParent, sameAlias, sameTarget, fewer⟩ := exists_parent subset listed
  rw [← sameTarget]
  refine grants_append ?_ (operationAllowed_mono fewer allowed)
  refine @mountFor_of_governs parent ⟨source.mountAlias.path.append rest wellFormed⟩
    source valid ⟨inParent, prefix_append _ _, ?_⟩
  intro other inView matching
  rw [sameAlias]
  change other.mountAlias.path.parts <+: source.mountAlias.path.parts ++ rest at matching
  rw [sameAlias] at matching
  rcases prefix_or_prefix_of_prefix matching (prefix_append _ rest) with before | after
  · exact before
  · by_cases same : other.mountAlias = mount.mountAlias
    · rw [same]
    · exact absurd ⟨other, inView, same, after, matching⟩ plain

/-- The comparison at the breakpoints settles every tail. -/
theorem CoversExposed.grants (covers : CoversExposed child parent) (listed : mount ∈ child.mounts)
    (wellFormed : ∀ part ∈ rest, IsPart part)
    (routed : mountBehind child mount rest = some mount) (nested : NestedBelow parent mount rest)
    (allowed : operationAllowed mount.permissions operation = true) :
    Grants parent (mount.target.path.parts ++ rest) operation := by
  obtain ⟨point, isPoint, sameMount, passes, transfers⟩ :=
    exists_breakpoint child parent mount wellFormed
  have nestedAtPoint : NestedBelow parent mount point := by
    obtain ⟨taker, inParent, different, below, matching⟩ := nested
    exact ⟨taker, inParent, different, below, passes taker inParent matching⟩
  refine transfers operation ?_
  rcases isPoint with rfl | isPoint
  · -- no alias fits between the mount's own and the path that ends there
    obtain ⟨_, _, different, below, matching⟩ := nestedAtPoint
    rw [append_nil] at matching
    exact absurd (congrArg MountAlias.mk (ext (matching.eq_of_length_le below.length_le))) different
  · exact covers mount listed point isPoint (sameMount.trans routed) nestedAtPoint operation allowed

/-- A subset of a valid view has no authority beyond it exactly if the parent grants what the
subset exposes below the nested aliases of the parent. -/
theorem subset_narrows_authority (parentValid : parent.validate = .ok ())
    (subset : child.isSubsetOf parent = true) :
    (∀ location operation, Reaches child location operation → Reaches parent location operation) ↔
      CoversExposed child parent := by
  constructor
  · intro narrows mount listed rest isPoint routed _ operation allowed
    have wellFormed := breakpoints_wellFormed isPoint
    refine (@grants_iff_reaches parent (mount.target.append rest wellFormed) operation).mpr
      (narrows _ operation (grants_iff_reaches.mp ?_))
    exact grants_append routed allowed
  · intro covers location operation reached
    obtain ⟨path, mount, resolved, allowed⟩ := reached
    obtain ⟨found, rest, parts, shape⟩ := resolveWithGrant_ok resolved
    have wellFormed : ∀ part ∈ rest, IsPart part := fun part listed =>
      path.path.wellFormed part (parts ▸ mem_append_right _ listed)
    have routed : mountBehind child mount rest = some mount := by
      rw [mountBehind, ← parts]
      exact found
    have listed := mem_of_mountFor found
    rw [← grants_iff_reaches, shape]
    by_cases nested : NestedBelow parent mount rest
    · exact covers.grants listed wellFormed routed nested allowed
    · exact grants_of_not_nestedBelow parentValid subset listed wellFormed nested allowed

end

/-! ## A workspace with a folder that may not be written -/

/-- A reader of the whole workspace. -/
def readerView : MountView := ⟨[workspaceMount .readOnly, vendorMount]⟩

/-- The workspace without the mount that protects a part of it. -/
def unprotectedView : MountView := ⟨[workspaceMount .readWriteListDelete]⟩

/-- What the reader reaches is reached in the workspace it was narrowed from. -/
theorem readerView_narrows :
    readerView.isSubsetOf workspaceView = true ∧ Reaches readerView vendorRoot .readFile ∧
      Reaches workspaceView vendorRoot .readFile := by
  have reached : Reaches readerView vendorRoot .readFile := grants_iff_reaches.mp (by decide)
  refine ⟨by decide, reached, ?_⟩
  exact (@subset_narrows_authority readerView workspaceView (by decide) (by decide)).mpr
    (by decide) vendorRoot .readFile reached

/-- Without the nested mount the broad one reaches what it protected. -/
theorem omitted_mount_widens_authority :
    unprotectedView.validate = .ok () ∧ workspaceView.validate = .ok () ∧
      unprotectedView.isSubsetOf workspaceView = true ∧
      Reaches unprotectedView vendorRoot .writeFile ∧
      ¬Reaches workspaceView vendorRoot .writeFile := by
  simp only [← grants_iff_reaches]
  decide

end Ironclaw.Filesystem
