import Mathlib.Data.List.Infix
import Ironclaw.Lib.Listing

/-!
# The leak detector

The regular expressions and the Aho-Corasick matcher are third-party code: a pattern
carries the function that lists its matches, and the matcher is whatever `build` gives.
A text is the list of its characters.  Locations count bytes, as in the code; the
matcher's positions, which the code never reads, count characters.
-/

namespace Ironclaw.Safety

open Lib List

inductive LeakAction where
  | block | redact | warn
  deriving DecidableEq

inductive LeakSeverity where
  | low | medium | high | critical

structure ByteRange where
  start : Nat
  stop : Nat

/-- `regex` is the text of the expression, `findIter` what it matches in a content. -/
structure LeakPattern where
  name : String
  regex : List Char
  findIter : List Char → List ByteRange
  severity : LeakSeverity
  action : LeakAction

structure LeakMatch where
  patternName : String
  severity : LeakSeverity
  action : LeakAction
  location : ByteRange
  maskedPreview : List Char

structure LeakScanResult where
  leakMatches : List LeakMatch
  shouldBlock : Bool
  redactedContent : Option (List Char)

/-- A prefix the matcher found: which of those it was built from, and where. -/
structure PrefixHit where
  pattern : Nat
  start : Nat
  stop : Nat

structure LeakDetector where
  patterns : List LeakPattern
  prefixMatcher : Option (List Char → List PrefixHit)
  knownPrefixes : List (List Char × Nat)

inductive LeakDetectionError where
  | secretLeakBlocked (pattern preview : String)

def LeakDetectionError.toString : LeakDetectionError → String
  | .secretLeakBlocked pattern preview =>
    "Secret leak blocked: pattern '" ++ pattern ++ "' matched '" ++ preview ++ "'"

def byteLen : List Char → Nat
  | [] => 0
  | first :: rest => first.utf8Size + byteLen rest

/-- The number of characters in the first bytes of a text. -/
def charsIn : Nat → List Char → Nat
  | 0, _ => 0
  | _ + 1, [] => 0
  | bytes + 1, first :: rest => charsIn (bytes + 1 - first.utf8Size) rest + 1

def slice (content : List Char) (range : ByteRange) : List Char :=
  (content.take (charsIn range.stop content)).drop (charsIn range.start content)

/-- The length is in bytes, the parts that are shown are cut by characters. -/
def maskSecret (secret : List Char) : List Char :=
  let len := byteLen secret
  if len ≤ 8 then replicate len '*'
  else secret.take 4 ++ replicate (min (len - 8) 8) '*' ++ secret.drop (len - 4)

def applyRedactions (content : List Char) (ranges : List ByteRange) : List Char :=
  if ranges.isEmpty then content
  else
    let (result, lastEnd) := ranges.foldl (fun (result, lastEnd) range =>
      let kept := if lastEnd < range.start then slice content ⟨lastEnd, range.start⟩ else []
      (result ++ kept ++ "[REDACTED]".toList, range.stop)) ([], 0)
    if lastEnd < byteLen content then result ++ slice content ⟨lastEnd, byteLen content⟩
    else result

namespace LeakDetector

def pushNew (indices : List Nat) (idx : Nat) : List Nat :=
  if indices.contains idx then indices else indices ++ [idx]

variable (detector : LeakDetector)

/-- The patterns whose prefix begins, or is begun by, the prefix that was found. -/
def overlapping (mat : PrefixHit) : List Nat :=
  match detector.knownPrefixes[mat.pattern]? with
  | none => []
  | some (found, _) => (detector.knownPrefixes.filter fun (other, _) =>
      found.isPrefixOf other || other.isPrefixOf found).map Prod.snd

variable (content : List Char)

def candidateIndices : List Nat :=
  match detector.prefixMatcher with
  | some findIter =>
    let indices := (findIter content).foldl
      (fun indices mat => (detector.overlapping mat).foldl pushNew indices) []
    ((range detector.patterns.length).filter fun idx =>
      !detector.knownPrefixes.any fun known => known.2 == idx).foldl pushNew indices
  | none => range detector.patterns.length

def check (idx : Nat) : List LeakMatch :=
  match detector.patterns[idx]? with
  | none => []
  | some pattern => (pattern.findIter content).map fun location =>
    { patternName := pattern.name
      severity := pattern.severity
      action := pattern.action
      location
      maskedPreview := maskSecret (slice content location) }

def report (indices : List Nat) : LeakScanResult :=
  let found := indices.flatMap (detector.check content)
  let redactRanges := sortByKey ByteRange.start
    ((found.filter fun leak => leak.action = .redact).map LeakMatch.location)
  { leakMatches := sortByKey (fun leak => leak.location.start) found
    shouldBlock := found.any fun leak => leak.action = .block
    redactedContent :=
      if redactRanges.isEmpty then none else some (applyRedactions content redactRanges) }

def scan : LeakScanResult := detector.report content (detector.candidateIndices content)

def unfiltered : LeakScanResult :=
  detector.report content (range detector.patterns.length)

/-- The scan reports what running every pattern reports. -/
def ReportsAll : Prop :=
  (detector.scan content).leakMatches.Perm (detector.unfiltered content).leakMatches

/-! ## The candidates -/

/-- A scan that reports all matches blocks and redacts as running every pattern does. -/
theorem ReportsAll.agrees {detector : LeakDetector} {content : List Char}
    (all : detector.ReportsAll content) :
    (detector.scan content).shouldBlock = (detector.unfiltered content).shouldBlock ∧
      (detector.scan content).redactedContent.isSome =
        (detector.unfiltered content).redactedContent.isSome := by
  have found : ((detector.candidateIndices content).flatMap (detector.check content)).Perm
      ((range detector.patterns.length).flatMap (detector.check content)) :=
    ((sortByKey_perm _ _).symm.trans all).trans (sortByKey_perm _ _)
  have ranges := (found.filter fun leak => leak.action = .redact).map LeakMatch.location
  have sorted := ((sortByKey_perm ByteRange.start _).trans ranges).trans
    (sortByKey_perm ByteRange.start _).symm
  refine ⟨found.any_eq, ?_⟩
  simp only [scan, unfiltered, report]
  simp [sorted.isEmpty_eq]
  split <;> rfl

/-! ## Requests -/

section

variable {build : List (List Char) → Option (List Char → List PrefixHit)}
  {patterns : List LeakPattern} {content : List Char} {findIter : List Char → List PrefixHit}

end

end LeakDetector

end Ironclaw.Safety
