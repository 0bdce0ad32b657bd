import Mathlib.Tactic.MkIffOfInductiveProp
import Ironclaw.Lib.Segments

/-!
# Paths

Virtual paths, scoped paths and mount aliases are normalized absolute paths.  The
source keeps the normalized text; here a path keeps the parts between its slashes with
the proof that they are what normalization lets through, and `asStr` is the text.
-/

namespace Ironclaw.HostApi

open Lib
open List

/-- A string as its characters. -/
abbrev Text := List Char

inductive HostApiError where
  | invalidPath (value : Text) (reason : String)
  | invalidMount (value : Text) (reason : String)
  | invariantViolation (reason : String)
  deriving DecidableEq

inductive PathKind where
  | virtualPath
  | scopedPath
  | mountAlias
  deriving DecidableEq

def redactedPathValue : Text := "<redacted path>".toList

def invalidPathErrorValue (raw : Text) : PathKind → Text
  | .scopedPath => redactedPathValue
  | .virtualPath | .mountAlias => raw

/-- The general category `Cc`. -/
def isControl (letter : Char) : Bool :=
  letter.val < 0x20 || (0x7f ≤ letter.val && letter.val ≤ 0x9f)

/-- The characters normalization lets through. -/
def isPathLetter (letter : Char) : Bool := letter ≠ '\\' && !isControl letter

/-- The parts normalization lets through. -/
@[mk_iff]
structure IsPart (part : Text) : Prop where
  nonempty : part ≠ []
  notDot : part ≠ ['.']
  notDotDot : part ≠ ['.', '.']
  noSlash : '/' ∉ part
  letters : part.all isPathLetter = true

instance (part : Text) : Decidable (IsPart part) := decidable_of_iff' _ (isPart_iff part)

structure NormalizedPath where
  parts : List Text
  nonempty : parts ≠ []
  wellFormed : ∀ part ∈ parts, IsPart part
  deriving DecidableEq

def NormalizedPath.asStr (path : NormalizedPath) : Text := joinSegments '/' path.parts

/-! ## Normalization -/

/-- The loop over what stands between slashes; `none` is the refusal of a `..`. -/
def collectParts : List Text → Option (List Text)
  | [] => some []
  | part :: rest =>
    if part = [] ∨ part = ['.'] then collectParts rest
    else if part = ['.', '.'] then none
    else (collectParts rest).map (part :: ·)

theorem isPart_of_collectParts {pieces parts : List Text}
    (pure : ∀ piece ∈ pieces, '/' ∉ piece ∧ piece.all isPathLetter = true)
    (collected : collectParts pieces = some parts) : ∀ part ∈ parts, IsPart part := by
  induction pieces generalizing parts with
  | nil =>
    cases collected
    simp
  | cons _ _ ih =>
    have later := fun parts collected => @ih parts
      (fun other listed => pure other (mem_cons_of_mem _ listed)) collected
    unfold collectParts at collected
    split at collected
    · exact later _ collected
    rename_i kept
    split at collected
    · cases collected
    rename_i notDotDot
    obtain ⟨_, collectedRest, rfl⟩ := Option.map_eq_some_iff.mp collected
    intro part listed
    rcases mem_cons.mp listed with rfl | listed
    · obtain ⟨noSlash, letters⟩ := pure part mem_cons_self
      exact ⟨fun empty => kept (.inl empty), fun dot => kept (.inr dot), notDotDot,
        noSlash, letters⟩
    · exact later _ collectedRest part listed

theorem collectParts_of_isPart {parts : List Text} (wellFormed : ∀ part ∈ parts, IsPart part) :
    collectParts parts = some parts := by
  induction parts with
  | nil => rfl
  | cons part _ ih =>
    have kept := wellFormed part mem_cons_self
    unfold collectParts
    rw [if_neg (by simp [kept.nonempty, kept.notDot]), if_neg kept.notDotDot,
      ih fun other listed => wellFormed other (mem_cons_of_mem _ listed)]
    rfl

theorem pieces_of_letters {raw : Text} (letters : raw.all isPathLetter = true) :
    ∀ piece ∈ raw.splitOn '/', '/' ∉ piece ∧ piece.all isPathLetter = true := by
  intro _ listed
  refine ⟨fun held => (mem_of_mem_splitOn _ listed _ held).2 rfl, ?_⟩
  rw [all_eq_true]
  intro letter held
  exact all_eq_true.mp letters letter (mem_of_mem_splitOn _ listed _ held).1

theorem letters_of_checks {raw : Text} (noControl : ¬raw.any isControl = true)
    (noBackslash : ¬raw.any (· = '\\') = true) : raw.all isPathLetter = true := by
  rw [all_eq_true]
  intro letter held
  have uncontrolled : isControl letter = false := by
    rw [← Bool.not_eq_true]
    exact fun control => noControl (any_eq_true.mpr ⟨letter, held, control⟩)
  have plain : letter ≠ '\\' :=
    fun same => noBackslash (any_eq_true.mpr ⟨letter, held, by simp [same]⟩)
  simp [isPathLetter, uncontrolled, plain]

def normalizeAbsolutePath (raw : Text) (kind : PathKind) : Except HostApiError NormalizedPath :=
  let invalid := fun reason => .error (.invalidPath (invalidPathErrorValue raw kind) reason)
  if raw = [] then invalid "path must not be empty"
  else if noControl : raw.any isControl then invalid "NUL/control characters are not allowed"
  else if noBackslash : raw.any (· = '\\') then invalid "backslashes are not allowed"
  else if raw.head? ≠ some '/' then invalid "path must be absolute"
  else
    match collected : collectParts (raw.splitOn '/') with
    | none => invalid "`..` segments are not allowed"
    | some parts =>
      if nonempty : parts = [] then invalid "root path is not valid here"
      else
        let path : NormalizedPath := ⟨parts, nonempty, isPart_of_collectParts
          (pieces_of_letters (letters_of_checks noControl noBackslash)) collected⟩
        if kind = .mountAlias ∧ path.asStr.getLast? = some '/' then
          .error (.invalidPath path.asStr "mount alias must not end with slash")
        else .ok path

namespace NormalizedPath

variable (path : NormalizedPath) {first second : NormalizedPath} (kind : PathKind)

@[ext]
theorem ext (same : first.parts = second.parts) : first = second := by
  cases first
  cases second
  cases same
  rfl

theorem separatorFree : SeparatorFree '/' path.parts :=
  fun part listed => (path.wellFormed part listed).noSlash

theorem asStr_injective (same : first.asStr = second.asStr) : first = second :=
  ext (joinSegments_injective first.separatorFree second.separatorFree same)

theorem getLast_asStr : path.asStr.getLast? ≠ some '/' := by
  obtain ⟨parts, nonempty, wellFormed⟩ := path
  obtain ⟨front, last, rfl⟩ := eq_nil_or_concat parts |>.resolve_left nonempty
  rw [concat_eq_append] at wellFormed
  have part := wellFormed last (by simp)
  intro slash
  have shape : joinSegments '/' (front.concat last) =
      joinSegments '/' front ++ '/' :: last := by simp
  rw [asStr, shape, getLast?_append, getLast?_cons] at slash
  cases final : last.getLast? with
  | none => exact part.nonempty (getLast?_eq_none_iff.mp final)
  | some =>
    rw [final] at slash
    simp only [Option.getD_some, Option.some_or, Option.some.injEq] at slash
    exact part.noSlash (slash ▸ mem_of_getLast? final)

theorem letters_asStr : path.asStr.all isPathLetter = true := by
  rw [all_eq_true]
  intro letter held
  obtain ⟨part, listed, inPart⟩ := mem_flatMap.mp held
  rcases mem_cons.mp inPart with rfl | inPart
  · decide
  · exact all_eq_true.mp (path.wellFormed part listed).letters letter inPart

def append (rest : List Text) (wellFormed : ∀ part ∈ rest, IsPart part) : NormalizedPath where
  parts := path.parts ++ rest
  nonempty := by simp [path.nonempty]
  wellFormed := by
    intro part listed
    rcases mem_append.mp listed with listed | listed
    · exact path.wellFormed part listed
    · exact wellFormed part listed

/-- What normalization reads from a text that starts with a slash and holds only
characters it lets through. -/
theorem normalize_of_parts {raw : Text} (absolute : raw.head? = some '/')
    (letters : raw.all isPathLetter = true)
    (collected : collectParts (raw.splitOn '/') = some path.parts) :
    normalizeAbsolutePath raw kind = .ok path := by
  have pure := all_eq_true.mp letters
  have noControl : ¬raw.any isControl = true := by
    intro control
    obtain ⟨letter, held, control⟩ := any_eq_true.mp control
    have := pure letter held
    simp [isPathLetter, control] at this
  have noBackslash : ¬raw.any (· = '\\') = true := by
    intro backslash
    obtain ⟨letter, held, _⟩ := any_eq_true.mp backslash
    have := pure letter held
    simp_all [isPathLetter]
  have present : raw ≠ [] := by
    rintro rfl
    cases absolute
  unfold normalizeAbsolutePath
  rw [if_neg present, dif_neg noControl, dif_neg noBackslash, if_neg (by simp [absolute])]
  split
  next refused =>
    rw [collected] at refused
    cases refused
  next parts found =>
    rw [collected] at found
    cases found
    rw [dif_neg path.nonempty]
    exact if_neg fun ⟨_, slash⟩ => path.getLast_asStr slash

theorem normalize_asStr : normalizeAbsolutePath path.asStr kind = .ok path := by
  refine path.normalize_of_parts kind ?_ path.letters_asStr ?_
  · obtain ⟨parts, nonempty, _⟩ := path
    cases parts with
    | nil => exact absurd rfl nonempty
    | cons => rfl
  · rw [asStr, splitOn_joinSegments path.separatorFree]
    exact collectParts_of_isPart path.wellFormed

end NormalizedPath

/-! ## Aliases and prefixes -/

def pathMatchesAlias (prefixPath path : Text) : Bool :=
  path == prefixPath || (prefixPath ++ ['/']).isPrefixOf path

/-- On normalized paths the textual test is the prefix order of the parts. -/
theorem pathMatchesAlias_iff (first second : NormalizedPath) :
    pathMatchesAlias first.asStr second.asStr = true ↔ first.parts <+: second.parts := by
  rw [pathMatchesAlias, Bool.or_eq_true, beq_iff_eq, isPrefixOf_iff_prefix]
  exact joinSegments_continues first.separatorFree second.separatorFree

/-! ## Mount aliases -/

structure MountAlias where
  path : NormalizedPath
  deriving DecidableEq

namespace MountAlias

def new (value : Text) : Except HostApiError MountAlias :=
  (normalizeAbsolutePath value .mountAlias).map MountAlias.mk

def asStr (mountAlias : MountAlias) : Text := mountAlias.path.asStr

end MountAlias

/-! ## Scoped paths -/

def containsText (needle text : Text) : Bool := text.tails.any needle.isPrefixOf

def looksLikeUrl (value : Text) : Bool := containsText "://".toList value

/-- The source looks at the second and third byte; they are characters behind a first
character of one byte. -/
def looksLikeWindowsPath : Text → Bool
  | first :: second :: third :: _ =>
    first.utf8Size = 1 && second = ':' && (third = '\\' || third = '/')
  | _ => false

def rawHostPrefixes : List Text :=
  ["/Users/", "/home/", "/root/", "/etc/", "/var/", "/private/", "/Volumes/", "/Library/",
    "/usr/", "/opt/", "/tmp/", "/proc/", "/sys/"].map String.toList

structure ScopedPath where
  path : NormalizedPath
  deriving DecidableEq

namespace ScopedPath

def asStr (scopedPath : ScopedPath) : Text := scopedPath.path.asStr

def newWithAllowedRawHostAliases (raw : Text) (rawHostAliases : List Text) :
    Except HostApiError ScopedPath :=
  let invalid := fun reason => .error (.invalidPath redactedPathValue reason)
  if looksLikeUrl raw then invalid "URLs are not scoped paths"
  else if looksLikeWindowsPath raw then invalid "Windows host paths are not scoped paths"
  else if rawHostPrefixes.any (·.isPrefixOf raw) &&
      !rawHostAliases.any (pathMatchesAlias · raw) then
    invalid "raw host paths are not scoped paths"
  else (normalizeAbsolutePath raw .scopedPath).map ScopedPath.mk

def new (value : Text) : Except HostApiError ScopedPath := newWithAllowedRawHostAliases value []

/-- Two slashes in a row never stand in a text made of parts, so it is no URL. -/
theorem looksLikeUrl_joinSegments {parts : List Text} (free : SeparatorFree '/' parts)
    (nonempty : [] ∉ parts) : looksLikeUrl (joinSegments '/' parts) = false := by
  rw [← Bool.not_eq_true, looksLikeUrl, containsText, any_eq_true]
  rintro ⟨_, tail, url⟩
  obtain ⟨before, rest_eq⟩ := mem_tails _ _ |>.mp tail
  obtain ⟨after, rfl⟩ := isPrefixOf_iff_prefix.mp url
  have doubled : joinSegments '/' parts = (before ++ [':']) ++ '/' :: '/' :: after := by
    rw [← rest_eq]
    simp
  exact nonempty (nil_mem_of_doubled free doubled)

/-- The text of a path is parsed as the path, unless it looks like a path of the host. -/
theorem new_asStr {path : NormalizedPath} (notWindows : looksLikeWindowsPath path.asStr = false)
    (notHost : rawHostPrefixes.any (·.isPrefixOf path.asStr) = false) :
    new path.asStr = .ok ⟨path⟩ := by
  have notUrl : looksLikeUrl path.asStr = false :=
    looksLikeUrl_joinSegments path.separatorFree fun listed =>
      (path.wellFormed [] listed).nonempty rfl
  rw [new, newWithAllowedRawHostAliases, if_neg (by simp [notUrl]), if_neg (by simp [notWindows]),
    if_neg (by simp [notHost]), path.normalize_asStr]
  rfl

end ScopedPath

/-! ## Virtual paths -/

def virtualRoots : List Text :=
  ["/engine", "/system/settings", "/system/extensions", "/system/skills", "/users", "/projects",
    "/memory", "/artifacts", "/tmp", "/secrets", "/events", "/processes", "/authorization",
    "/outbound", "/run-state", "/approvals", "/threads", "/conversations", "/turns",
    "/checkpoint-state", "/resources", "/tenant-shared", "/tenants"].map String.toList

def hasKnownRoot (path : NormalizedPath) : Bool := virtualRoots.any (pathMatchesAlias · path.asStr)

structure VirtualPath where
  path : NormalizedPath
  rooted : hasKnownRoot path = true
  deriving DecidableEq

namespace VirtualPath

variable (virtual : VirtualPath)

def asStr : Text := virtual.path.asStr

def new (value : Text) : Except HostApiError VirtualPath :=
  match normalizeAbsolutePath value .virtualPath with
  | .error error => .error error
  | .ok normalized =>
    if rooted : hasKnownRoot normalized = true then .ok ⟨normalized, rooted⟩
    else .error (.invalidPath normalized.asStr "virtual path must begin with a known root")

@[ext]
theorem ext {first second : VirtualPath} (same : first.path = second.path) : first = second := by
  cases first
  cases second
  cases same
  rfl

def trimEndMatches (text : Text) : Text := (text.reverse.dropWhile (· = '/')).reverse

def joinTail (tail : Text) : Except HostApiError VirtualPath :=
  if tail = [] then .ok virtual else new (trimEndMatches virtual.asStr ++ '/' :: tail)

/-- Text that matches a prefix still matches when more is appended at a slash. -/
theorem pathMatchesAlias_append {prefixPath path : Text} (tail : Text)
    (matching : pathMatchesAlias prefixPath path = true) :
    pathMatchesAlias prefixPath (path ++ '/' :: tail) = true := by
  rw [pathMatchesAlias, Bool.or_eq_true, beq_iff_eq, isPrefixOf_iff_prefix] at matching ⊢
  right
  rcases matching with rfl | ⟨rest, rfl⟩
  · exact ⟨tail, by simp⟩
  · exact ⟨rest ++ '/' :: tail, by simp⟩

theorem trimEndMatches_asStr : trimEndMatches virtual.asStr = virtual.asStr := by
  have last := virtual.path.getLast_asStr
  unfold trimEndMatches
  change ((virtual.path.asStr).reverse.dropWhile (· = '/')).reverse = virtual.path.asStr
  rw [getLast?_eq_head?_reverse] at last
  cases reversed : virtual.path.asStr.reverse with
  | nil => simpa using reversed.symm
  | cons letter =>
    rw [reversed] at last
    have different : letter ≠ '/' := fun same => last (by simp [same])
    rw [dropWhile_cons_of_neg (by simpa using different), ← reversed, reverse_reverse]

/-- The virtual path that continues with more parts; the root stays a known one. -/
def append (rest : List Text) (wellFormed : ∀ part ∈ rest, IsPart part) : VirtualPath where
  path := virtual.path.append rest wellFormed
  rooted := by
    have shape : (virtual.path.append rest wellFormed).asStr =
        virtual.path.asStr ++ joinSegments '/' rest := joinSegments_append
    cases rest with
    | nil =>
      have same : virtual.path.append [] wellFormed = virtual.path :=
        NormalizedPath.ext (append_nil _)
      rw [same]
      exact virtual.rooted
    | cons part rest =>
      obtain ⟨root, listed, matching⟩ := any_eq_true.mp virtual.rooted
      refine any_eq_true.mpr ⟨root, listed, ?_⟩
      rw [shape]
      exact pathMatchesAlias_append _ matching

theorem joinTail_parts (rest : List Text) (wellFormed : ∀ part ∈ rest, IsPart part) :
    virtual.joinTail ((joinSegments '/' rest).dropWhile (· = '/')) =
      .ok (virtual.append rest wellFormed) := by
  cases rest with
  | nil => exact congrArg Except.ok (ext (NormalizedPath.ext (append_nil _).symm))
  | cons part rest =>
    have isPart := wellFormed part mem_cons_self
    obtain ⟨letter, letters, rfl⟩ := exists_cons_of_ne_nil isPart.nonempty
    have notSlash : letter ≠ '/' := fun same => isPart.noSlash (by simp [same])
    have tail : (joinSegments '/' ((letter :: letters) :: rest)).dropWhile (· = '/') =
        letter :: (letters ++ joinSegments '/' rest) := by
      simp [notSlash]
    have whole : (virtual.append ((letter :: letters) :: rest) wellFormed).path.asStr =
        virtual.asStr ++ '/' :: letter :: (letters ++ joinSegments '/' rest) :=
      joinSegments_append
    rw [tail, joinTail, if_neg (by simp), trimEndMatches_asStr, ← whole, new,
      NormalizedPath.normalize_asStr]
    exact dif_pos (virtual.append _ wellFormed).rooted

end VirtualPath

end Ironclaw.HostApi
