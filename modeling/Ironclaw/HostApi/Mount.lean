import Mathlib.Algebra.GroupWithZero.Nat
import Mathlib.Data.List.MinMax
import Mathlib.Data.List.Nodup
import Ironclaw.HostApi.Path

/-!
# Mount views

A mount view maps aliases to virtual roots with permissions.  A scoped path resolves
through the mount with the longest alias that matches it.
-/

namespace Ironclaw.HostApi

open Lib NormalizedPath
open List

structure MountPermissions where
  read : Bool
  write : Bool
  delete : Bool
  list : Bool
  execute : Bool
  deriving DecidableEq

namespace MountPermissions

def readOnly : MountPermissions where
  read := true
  write := false
  delete := false
  list := true
  execute := false

def readWrite : MountPermissions where
  read := true
  write := true
  delete := false
  list := true
  execute := false

def readWriteListDelete : MountPermissions where
  read := true
  write := true
  delete := true
  list := true
  execute := false

def isSubsetOf (self parent : MountPermissions) : Bool :=
  (!self.read || parent.read) && (!self.write || parent.write) &&
    (!self.delete || parent.delete) && (!self.list || parent.list) &&
    (!self.execute || parent.execute)

end MountPermissions

structure MountGrant where
  mountAlias : MountAlias
  target : VirtualPath
  permissions : MountPermissions
  deriving DecidableEq

structure MountView where
  mounts : List MountGrant

/-- `str::len`, in bytes. -/
def byteLength (text : Text) : Nat := (text.map Char.utf8Size).sum

/-- `str::strip_prefix`. -/
def stripPrefix (front text : Text) : Option Text :=
  if front.isPrefixOf text then some (text.drop front.length) else none

namespace MountView

/-- The loop of `validate` behind the aliases it has seen. -/
def validateFrom (seen : List Text) : List MountGrant → Except HostApiError Unit
  | [] => .ok ()
  | mount :: rest =>
    if mount.mountAlias.asStr ∈ seen then
      .error (.invalidMount mount.mountAlias.asStr "duplicate mount alias")
    else validateFrom (mount.mountAlias.asStr :: seen) rest

variable (view : MountView)

def validate : Except HostApiError Unit := validateFrom [] view.mounts

def new (mounts : List MountGrant) : Except HostApiError MountView :=
  (validate ⟨mounts⟩).map fun _ => ⟨mounts⟩

/-- The mount with the longest matching alias, the last one among equals. -/
def mountFor (raw : Text) : Option MountGrant :=
  (view.mounts.filter fun mount => pathMatchesAlias mount.mountAlias.asStr raw).reverse.argmax
    fun mount => byteLength mount.mountAlias.asStr

def resolveWithGrant (path : ScopedPath) : Except HostApiError (VirtualPath × MountGrant) :=
  match view.mountFor path.asStr with
  | none => .error (.invalidMount path.asStr "no mount alias matches scoped path")
  | some mount =>
    let tail := ((stripPrefix mount.mountAlias.asStr path.asStr).getD []).dropWhile (· = '/')
    (mount.target.joinTail tail).map fun virtual => (virtual, mount)

def resolve (path : ScopedPath) : Except HostApiError VirtualPath :=
  (view.resolveWithGrant path).map (·.1)

def isSubsetOf (self parent : MountView) : Bool :=
  self.mounts.all fun child => parent.mounts.any fun parentMount =>
    child.mountAlias = parentMount.mountAlias && child.target.asStr = parentMount.target.asStr &&
      child.permissions.isSubsetOf parentMount.permissions

end MountView

/-! ## Validity -/

namespace MountView

theorem validateFrom_ok_iff {seen : List Text} {mounts : List MountGrant} :
    validateFrom seen mounts = .ok () ↔ (mounts.map (·.mountAlias.asStr)).Nodup ∧
        ∀ mount ∈ mounts, mount.mountAlias.asStr ∉ seen := by
  induction mounts generalizing seen with
  | nil => simp [validateFrom]
  | cons _ _ ih =>
    unfold validateFrom
    split
    next duplicate => simp [duplicate]
    next fresh =>
      rw [ih, map_cons, nodup_cons]
      constructor
      · rintro ⟨distinct, unseen⟩
        refine ⟨⟨?_, distinct⟩, ?_⟩
        · rintro listed
          obtain ⟨other, inRest, same⟩ := mem_map.mp listed
          exact unseen other inRest (by simp [same])
        · intro other listed
          rcases mem_cons.mp listed with rfl | inRest
          · exact fresh
          · exact fun inSeen => unseen other inRest (mem_cons_of_mem _ inSeen)
      · rintro ⟨⟨missing, distinct⟩, unseen⟩
        refine ⟨distinct, ?_⟩
        intro other inRest listed
        rcases mem_cons.mp listed with same | inSeen
        · exact missing (mem_map.mpr ⟨other, inRest, same⟩)
        · exact unseen other (mem_cons_of_mem _ inRest) inSeen

end MountView

/-! ## Resolution -/

theorem byteLength_append (first second : Text) :
    byteLength (first ++ second) = byteLength first + byteLength second := by
  simp [byteLength]

theorem byteLength_pos {text : Text} (nonempty : text ≠ []) : 0 < byteLength text := by
  obtain ⟨letter, _, rfl⟩ := exists_cons_of_ne_nil nonempty
  have := letter.utf8Size_pos
  simp only [byteLength, map_cons, sum_cons]
  omega

/-- Of two aliases that match one path the longer text has the longer parts. -/
theorem prefix_of_byteLength_le {first second : NormalizedPath} {parts : List Text}
    (matchesFirst : first.parts <+: parts) (matchesSecond : second.parts <+: parts)
    (shorter : byteLength first.asStr ≤ byteLength second.asStr) :
    first.parts <+: second.parts := by
  rcases prefix_or_prefix_of_prefix matchesFirst matchesSecond with before | after
  · exact before
  obtain ⟨rest, shape⟩ := after
  have text : first.asStr = second.asStr ++ joinSegments '/' rest := by
    rw [asStr, ← shape, joinSegments_append]
    rfl
  rw [text, byteLength_append] at shorter
  have empty : joinSegments '/' rest = [] := by
    by_contra nonempty
    have := byteLength_pos nonempty
    omega
  rw [joinSegments_eq_nil.mp empty, append_nil] at shape
  rw [shape]

namespace MountView

variable {view : MountView} {path : ScopedPath} {mount : MountGrant}

/-- The mount a path resolves through: it matches, and no mount matches with more parts. -/
def Governs (view : MountView) (mount : MountGrant) (parts : List Text) : Prop :=
  mount ∈ view.mounts ∧ mount.mountAlias.path.parts <+: parts ∧
    ∀ other ∈ view.mounts, other.mountAlias.path.parts <+: parts →
      other.mountAlias.path.parts <+: mount.mountAlias.path.parts

theorem mem_candidates : mount ∈ (view.mounts.filter fun mount =>
        pathMatchesAlias mount.mountAlias.asStr path.asStr).reverse ↔
      mount ∈ view.mounts ∧ mount.mountAlias.path.parts <+: path.path.parts := by
  rw [mem_reverse, mem_filter, MountAlias.asStr, ScopedPath.asStr, pathMatchesAlias_iff]

theorem governs_of_mountFor (found : view.mountFor path.asStr = some mount) :
    view.Governs mount path.path.parts := by
  have listed := mem_candidates.mp (argmax_mem found)
  refine ⟨listed.1, listed.2, ?_⟩
  intro other inView matching
  have longest := le_of_mem_argmax (mem_candidates.mpr ⟨inView, matching⟩) found
  exact prefix_of_byteLength_le matching listed.2 longest

theorem mountFor_congr {path other : NormalizedPath}
    (agree : ∀ mount ∈ view.mounts, mount.mountAlias.path.parts <+: path.parts ↔
      mount.mountAlias.path.parts <+: other.parts) :
    view.mountFor path.asStr = view.mountFor other.asStr := by
  have same : ∀ mount ∈ view.mounts, pathMatchesAlias mount.mountAlias.asStr path.asStr =
      pathMatchesAlias mount.mountAlias.asStr other.asStr := by
    intro mount listed
    rw [Bool.eq_iff_iff, MountAlias.asStr, pathMatchesAlias_iff, pathMatchesAlias_iff]
    exact agree mount listed
  rw [mountFor, mountFor, filter_congr same]

theorem mem_of_mountFor {raw : Text} (found : view.mountFor raw = some mount) :
    mount ∈ view.mounts :=
  (mem_filter.mp (mem_reverse.mp (argmax_mem found))).1

theorem mountFor_of_governs (valid : view.validate = .ok ())
    (governs : view.Governs mount path.path.parts) : view.mountFor path.asStr = some mount := by
  obtain ⟨inView, matching, longest⟩ := governs
  cases found : view.mountFor path.asStr with
  | none =>
    have listed := mem_candidates.mpr ⟨inView, matching⟩
    rw [argmax_eq_none.mp found] at listed
    cases listed
  | some other =>
    obtain ⟨otherInView, otherMatches, otherLongest⟩ := governs_of_mountFor found
    have same : other.mountAlias.path.parts = mount.mountAlias.path.parts :=
      (longest other otherInView otherMatches).eq_of_length_le
        (otherLongest mount inView matching).length_le
    rw [inj_on_of_nodup_map (validateFrom_ok_iff.mp valid).1 otherInView inView]
    exact congrArg asStr (ext same)

theorem resolveWithGrant_of_mountFor (found : view.mountFor path.asStr = some mount)
    {rest : List Text} (shape : path.path.parts = mount.mountAlias.path.parts ++ rest)
    (wellFormed : ∀ part ∈ rest, IsPart part) :
    view.resolveWithGrant path = .ok (mount.target.append rest wellFormed, mount) := by
  have text : path.asStr = mount.mountAlias.asStr ++ joinSegments '/' rest := by
    rw [ScopedPath.asStr, asStr, shape, joinSegments_append]
    rfl
  have tail : stripPrefix mount.mountAlias.asStr path.asStr = some (joinSegments '/' rest) := by
    rw [stripPrefix, if_pos, text, drop_left]
    rw [text, isPrefixOf_iff_prefix]
    exact prefix_append _ _
  rw [resolveWithGrant, found]
  simp only [tail, Option.getD_some, VirtualPath.joinTail_parts mount.target rest wellFormed]
  rfl

theorem resolveWithGrant_ok {virtual : VirtualPath}
    (resolved : view.resolveWithGrant path = .ok (virtual, mount)) :
    view.mountFor path.asStr = some mount ∧ ∃ rest,
      path.path.parts = mount.mountAlias.path.parts ++ rest ∧
        virtual.path.parts = mount.target.path.parts ++ rest := by
  cases found : view.mountFor path.asStr with
  | none =>
    rw [resolveWithGrant, found] at resolved
    cases resolved
  | some =>
    obtain ⟨rest, shape⟩ := (governs_of_mountFor found).2.1
    have wellFormed : ∀ part ∈ rest, IsPart part := by
      intro part listed
      exact path.path.wellFormed part (shape ▸ mem_append_right _ listed)
    rw [resolveWithGrant_of_mountFor found shape.symm wellFormed] at resolved
    cases resolved
    exact ⟨rfl, rest, shape.symm, rfl⟩

/-- A path that resolves does so through the mount with the longest alias its segments start
with, to the target of that mount or below it and without a dot-dot segment; different paths
resolve to different places of a mount; and normalized paths normalize to themselves. -/
theorem resolve_contained (view : MountView) (path : ScopedPath) :
    (∀ virtual mount, view.resolveWithGrant path = .ok (virtual, mount) →
      view.Governs mount path.path.parts ∧
        (virtual.asStr = mount.target.asStr ∨ mount.target.asStr ++ ['/'] <+: virtual.asStr) ∧
        ['.', '.'] ∉ virtual.asStr.splitOn '/' ∧
        ∀ other reached, view.resolveWithGrant other = .ok (reached, mount) →
          reached.asStr = virtual.asStr → other = path) ∧
      (∀ kind, normalizeAbsolutePath path.asStr kind = .ok path.path) ∧
      ∀ (virtual : VirtualPath) kind, normalizeAbsolutePath virtual.asStr kind = .ok virtual.path ∧
        VirtualPath.new virtual.asStr = .ok virtual := by
  refine ⟨fun virtual mount resolved => ?_, path.path.normalize_asStr, fun virtual kind => ?_⟩
  · obtain ⟨found, rest, shape, placed⟩ := resolveWithGrant_ok resolved
    refine ⟨governs_of_mountFor found, ?_, ?_, ?_⟩
    · exact (joinSegments_continues mount.target.path.separatorFree
        virtual.path.separatorFree).mpr ⟨rest, placed.symm⟩
    · rw [VirtualPath.asStr, asStr, splitOn_joinSegments virtual.path.separatorFree]
      intro listed
      rcases mem_cons.mp listed with same | listed
      · cases same
      · exact (virtual.path.wellFormed _ listed).notDotDot rfl
    · intro other _ resolvedOther same
      obtain ⟨_, _, otherShape, otherPlaced⟩ := resolveWithGrant_ok resolvedOther
      rw [asStr_injective same, placed, append_cancel_left_eq] at otherPlaced
      have parts : other.path.parts = path.path.parts := by
        rw [otherShape, shape, otherPlaced]
      exact congrArg ScopedPath.mk (ext parts)
  · have normal := virtual.path.normalize_asStr
    refine ⟨normal kind, ?_⟩
    rw [VirtualPath.new, VirtualPath.asStr, normal]
    exact dif_pos virtual.rooted

end MountView

/-! ## A workspace with a folder that may not be written -/

def workspaceAlias : MountAlias := ⟨⟨["workspace".toList], by decide, by decide⟩⟩

def vendorAlias : MountAlias := ⟨⟨["workspace".toList, "vendor".toList], by decide, by decide⟩⟩

def projectRoot : VirtualPath :=
  ⟨⟨["projects".toList, "p".toList], by decide, by decide⟩, by decide⟩

def vendorRoot : VirtualPath :=
  ⟨⟨["projects".toList, "p".toList, "vendor".toList], by decide, by decide⟩, by decide⟩

/-- The workspace as a whole, with the given permissions. -/
def workspaceMount (permissions : MountPermissions) : MountGrant :=
  ⟨workspaceAlias, projectRoot, permissions⟩

def vendorMount : MountGrant := ⟨vendorAlias, vendorRoot, .readOnly⟩

/-- The project may be changed except for its vendored code. -/
def workspaceView : MountView := ⟨[workspaceMount .readWriteListDelete, vendorMount]⟩

def vendoredFile : ScopedPath :=
  ⟨⟨["workspace".toList, "vendor".toList, "lib".toList], by decide, by decide⟩⟩

/-- Both mounts match the file, and the one with the longer alias resolves it. -/
theorem MountView.vendored_file_contained : ∃ virtual,
    workspaceView.resolveWithGrant vendoredFile = .ok (virtual, vendorMount) ∧
      workspaceView.Governs vendorMount vendoredFile.path.parts ∧
      (virtual.asStr = vendorRoot.asStr ∨ vendorRoot.asStr ++ ['/'] <+: virtual.asStr) := by
  have resolved : workspaceView.resolveWithGrant vendoredFile =
      .ok (vendorRoot.append ["lib".toList] (by decide), vendorMount) := rfl
  obtain ⟨governs, below, _⟩ := (resolve_contained workspaceView vendoredFile).1 _ _ resolved
  exact ⟨_, resolved, governs, below⟩

end Ironclaw.HostApi
