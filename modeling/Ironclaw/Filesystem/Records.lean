import Ironclaw.Filesystem.Authority
import Ironclaw.Lib.Table

/-!
# Entries and filters

What a backend keeps at a virtual path, and the filters a query is asked with.  Embeddings
are single-precision vectors, stored as little-endian blobs.
-/

namespace Ironclaw.Filesystem

open HostApi
open Lib

def u64Max : Nat := 2 ^ 64 - 1

structure RecordVersion where
  value : Nat
  deriving DecidableEq

/-- `saturating_add`. -/
def RecordVersion.next (version : RecordVersion) : RecordVersion := ⟨min (version.value + 1) u64Max⟩

structure SeqNo where
  value : Nat

def SeqNo.zero : SeqNo := ⟨0⟩

def SeqNo.next (seq : SeqNo) : SeqNo := ⟨min (seq.value + 1) u64Max⟩

inductive CasExpectation where
  | absent
  | version (expected : RecordVersion)
  | any

structure IndexKey where
  name : String
  deriving DecidableEq

inductive IndexValue where
  | bool (value : Bool)
  | i64 (value : Int)
  | text (value : Text)
  | bytes (value : List UInt8)
  deriving DecidableEq

structure RecordKind where
  name : String

structure ContentType where
  name : String

def ContentType.octetStream : ContentType := ⟨"application/octet-stream"⟩

structure Entry where
  body : List UInt8
  contentType : ContentType
  kind : Option RecordKind
  indexed : Table IndexKey IndexValue

def Entry.bytes (body : List UInt8) : Entry where
  body
  contentType := .octetStream
  kind := none
  indexed := .empty

structure VersionedEntry where
  path : VirtualPath
  entry : Entry
  version : RecordVersion

structure EventRecord where
  seq : SeqNo
  payload : List UInt8

inductive FilesystemError where
  | contract (error : HostApiError)
  | permissionDenied (path : ScopedPath) (operation : FilesystemOperation)
  | notFound (path : VirtualPath) (operation : FilesystemOperation)
  | pathOutsideMount (path : VirtualPath)
  | backend (path : VirtualPath) (operation : FilesystemOperation) (reason : String)
  | versionMismatch (path : VirtualPath) (expected found : Option RecordVersion)
  | unsupported (path : VirtualPath) (operation : FilesystemOperation)

structure Page where
  offset : Nat
  limit : Nat

inductive Filter where
  | all
  | eq (key : IndexKey) (value : IndexValue)
  | prefixOn (key : IndexKey) (value : IndexValue)
  | range (key : IndexKey) (lo hi : IndexValue)
  | fts (key : IndexKey) (query : Text)
  | vectorNearest (key : IndexKey) (embedding : List Float32) (limit : Nat)
  | and (children : List Filter)
  | or (children : List Filter)

/-! ## Vectors -/

def decodeChunks : List UInt8 → List Float32
  | first :: second :: third :: fourth :: rest =>
    Float32.ofBits (first.toUInt32 ||| second.toUInt32 <<< 8 ||| third.toUInt32 <<< 16 |||
      fourth.toUInt32 <<< 24) :: decodeChunks rest
  | _ => []

def decodeEmbeddingBlob (bytes : List UInt8) : Option (List Float32) :=
  if bytes = [] ∨ bytes.length % 4 ≠ 0 then none else some (decodeChunks bytes)

def cosineSimilarity (left right : List Float32) : Option Float32 :=
  if left.length ≠ right.length ∨ left = [] then none
  else
    let (dot, leftNorm, rightNorm) := (left.zip right).foldl
      (fun (dot, leftNorm, rightNorm) (l, r) => (dot + l * r, leftNorm + l * l, rightNorm + r * r))
      ((0 : Float32), (0 : Float32), (0 : Float32))
    if leftNorm ≤ 0 ∨ rightNorm ≤ 0 then none
    else
      let score := dot / (leftNorm.sqrt * rightNorm.sqrt)
      if score.isFinite then some score else none

/-- `partial_cmp` with its default for values that do not compare. -/
def partialCmp (first second : Float32) : Ordering :=
  if first < second then .lt else if second < first then .gt else .eq

/-! ## Scalar filters -/

/-- What the standard library knows of Unicode and the text filter asks for. -/
structure UnicodeRules where
  toLowercase : Text → Text
  isWhitespace : Char → Bool

def IndexValue.discriminant : IndexValue → Nat
  | .bool _ => 0
  | .i64 _ => 1
  | .text _ => 2
  | .bytes _ => 3

/-- The derived order: the variant first, then its value. -/
def IndexValue.cmp : IndexValue → IndexValue → Ordering
  | .bool first, .bool second => compare first second
  | .i64 first, .i64 second => compare first second
  | .text first, .text second => compare first second
  | .bytes first, .bytes second => compare first second
  | first, second => compare first.discriminant second.discriminant

def splitWhitespace (rules : UnicodeRules) (text : Text) : List Text :=
  (text.splitOnP rules.isWhitespace).filter (· ≠ [])

def ftsNaiveMatches (rules : UnicodeRules) (stored query : Text) : Bool :=
  (splitWhitespace rules query).all fun token =>
    containsText (rules.toLowercase token) (rules.toLowercase stored)

mutual

def filterMatches (rules : UnicodeRules) (indexed : Table IndexKey IndexValue) : Filter → Bool
  | .all => true
  | .eq key value => decide (indexed.get key = some value)
  | .prefixOn key value =>
    match indexed.get key, value with
    | some (.text stored), .text front => front.isPrefixOf stored
    | _, _ => false
  | .range key lo hi =>
    match indexed.get key with
    | some value =>
      lo.discriminant == hi.discriminant && value.discriminant == lo.discriminant &&
        (value.cmp lo).isGE && (value.cmp hi).isLE
    | none => false
  | .fts key query =>
    match indexed.get key with
    | some (.text stored) => ftsNaiveMatches rules stored query
    | _ => false
  | .vectorNearest _ _ _ => false
  | .and children => allMatch rules indexed children
  | .or children => anyMatches rules indexed children

def allMatch (rules : UnicodeRules) (indexed : Table IndexKey IndexValue) : List Filter → Bool
  | [] => true
  | filter :: rest => filterMatches rules indexed filter && allMatch rules indexed rest

def anyMatches (rules : UnicodeRules) (indexed : Table IndexKey IndexValue) : List Filter → Bool
  | [] => false
  | filter :: rest => filterMatches rules indexed filter || anyMatches rules indexed rest

end

mutual

def walkVectorNearest (insideCompound : Bool) : Filter → Bool
  | .vectorNearest _ _ _ => insideCompound
  | .and children | .or children => walkChildren children
  | .all | .eq _ _ | .prefixOn _ _ | .range _ _ _ | .fts _ _ => false

def walkChildren : List Filter → Bool
  | [] => false
  | child :: rest => walkVectorNearest true child || walkChildren rest

end

def containsNestedVectorNearest (filter : Filter) : Bool := walkVectorNearest false filter

end Ironclaw.Filesystem
